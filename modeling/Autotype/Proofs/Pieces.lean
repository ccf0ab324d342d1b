import Autotype.Proofs.History
import Autotype.Proofs.Upload
import Mathlib.Data.List.Forall2

/-!
# Scripts that are written in pieces

A script comes to its place by appends, one after the other, or by writes to addresses, in any order and over
each other, as long as each carries the script's own bytes. If no cell of the script is left out, the same bytes
are there in the end, and a commit that asks for the checksum of the cells puts the same header in front of
them as one that relies on the checksum of what was appended (`Conversation.same_store_either_way`).
-/

namespace Autotype

/-- Whether two stores hold the same contents and know the same header. -/
structure Store.Alike {μ : Type} [Medium μ] (s t : Store μ) : Prop where
  cells : s.readByte = t.readByte
  header : s.header = t.header

/-- Whether a report asks to write a piece of a script to its own place: so many bytes from an offset on. -/
structure Piece (script report : Bytes) (offset length : Nat) : Prop where
  positive : 0 < length
  short : length ≤ Request.maxWrite
  inside : offset + length ≤ script.length
  asked : ∃ payload, payload.take length = (script.drop offset).take length ∧
    Request.ofReport? report = some (.write (scriptStart + offset) length payload)

namespace Piece

variable {μ : Type} [Medium μ] {script report : Bytes} {offset length : Nat}

theorem length_eq (piece : Piece script report offset length) :
    ((script.drop offset).take length).length = length := by
  have inside := piece.inside
  rw [List.length_take, List.length_drop]
  omega

theorem receive (piece : Piece script report offset length) (room : script.length ≤ maxScript)
    (s : Session) (store : Store μ) :
    s.receive store report = ⟨.written length, s,
      store.writeBlock (scriptStart + offset) ((script.drop offset).take length)⟩ := by
  obtain ⟨payload, taken, asked⟩ := piece.asked
  have inside := piece.inside
  have numbers := geometry
  rw [Session.receive_eq asked, Session.handle, Session.write_of_fits piece.positive piece.short (by omega),
    taken]

variable [LawfulMedium μ] {store : Store μ}

theorem size_receive (piece : Piece script report offset length) (room : script.length ≤ maxScript)
    (s : Session) : (s.receive store report).store.size = store.size := by
  rw [piece.receive room, Store.size_writeBlock]

theorem readByte_receive (piece : Piece script report offset length) (room : script.length ≤ maxScript)
    (size : store.size = storeSize) (s : Session) :
    (s.receive store report).store.readByte =
      overlaid store.readByte (scriptStart + offset) ((script.drop offset).take length) := by
  have inside := piece.inside
  have numbers := geometry
  rw [piece.receive room]
  refine Store.readByte_writeBlock_eq ?_
  rw [piece.length_eq, size]
  omega

/-- A piece does not reach beyond its script. -/
theorem readByte_outside (piece : Piece script report offset length) (room : script.length ≤ maxScript)
    (size : store.size = storeSize) (s : Session) {a : Nat}
    (outside : a < scriptStart ∨ scriptStart + script.length ≤ a) :
    (s.receive store report).store.readByte a = store.readByte a := by
  have inside := piece.inside
  rw [piece.readByte_receive room size]
  rcases outside with before | behind
  · exact overlaid_of_lt (by omega)
  · exact overlaid_of_ge (by rw [piece.length_eq]; omega)

/-- A piece brings the script's own bytes, and spoils none that are there. -/
theorem readByte_script (piece : Piece script report offset length) (room : script.length ≤ maxScript)
    (size : store.size = storeSize) (s : Session) {i : Nat} (within : i < script.length)
    (known : store.readByte (scriptStart + i) = script[i] ∨ offset ≤ i ∧ i < offset + length) :
    (s.receive store report).store.readByte (scriptStart + i) = script[i] := by
  rw [piece.readByte_receive room size]
  by_cases before : i < offset
  · rw [overlaid_of_lt (by omega)]
    exact known.resolve_right (by omega)
  · obtain ⟨j, rfl⟩ := Nat.exists_eq_add_of_le (Nat.le_of_not_lt before)
    by_cases covered : j < ((script.drop offset).take length).length
    · rw [← Nat.add_assoc, overlaid_add covered, List.getElem_take, List.getElem_drop]
    · rw [overlaid_of_ge (by omega)]
      rw [piece.length_eq] at covered
      exact known.resolve_right (by omega)

end Piece

namespace Conversation

variable {μ : Type} [Medium μ]

/-! ## Several reports -/

/-- Takes in these reports. -/
def hears (c : Conversation μ) (reports : List Bytes) : Conversation μ :=
  reports.foldl hear c

/-- The replies to these reports. -/
def replies (c : Conversation μ) : List Bytes → List Reply
  | [] => []
  | report :: reports => (c.answer report).reply :: (c.hear report).replies reports

theorem hears_concat (c : Conversation μ) (reports : List Bytes) (report : Bytes) :
    c.hears (reports ++ [report]) = (c.hears reports).hear report := by
  rw [hears, List.foldl_append]
  rfl

theorem replies_concat (c : Conversation μ) (reports : List Bytes) (report : Bytes) :
    c.replies (reports ++ [report]) = c.replies reports ++ [((c.hears reports).answer report).reply] := by
  induction reports generalizing c with
  | nil => rfl
  | cons first reports ih => exact congrArg _ (ih (c.hear first))

theorem isOk_replies_concat {c : Conversation μ} {reports : List Bytes} {report : Bytes}
    (before : ∀ reply ∈ c.replies reports, reply.IsOk)
    (last : ((c.hears reports).answer report).reply.IsOk) :
    ∀ reply ∈ c.replies (reports ++ [report]), reply.IsOk := by
  intro reply among
  rw [replies_concat, List.mem_append, List.mem_singleton] at among
  rcases among with earlier | rfl
  · exact before reply earlier
  · exact last

variable [LawfulMedium μ] {c : Conversation μ} {script : Bytes}

/-! ## In pieces -/

/-- Pieces leave all cells beyond the script alone, and a cell of the script holds the script's byte if it did
so before or one of the pieces covers it. -/
theorem hears_pieces {writes : List Bytes} (size : c.store.size = storeSize)
    (room : script.length ≤ maxScript)
    (pieces : ∀ report ∈ writes, ∃ offset length, Piece script report offset length) :
    (∀ reply ∈ c.replies writes, reply.IsOk) ∧
    (c.hears writes).store.size = storeSize ∧
    (∀ a, a < scriptStart ∨ scriptStart + script.length ≤ a →
      (c.hears writes).store.readByte a = c.store.readByte a) ∧
    ∀ i, (within : i < script.length) →
      (c.store.readByte (scriptStart + i) = script[i] ∨
        ∃ report ∈ writes, ∃ offset length, Piece script report offset length ∧
          offset ≤ i ∧ i < offset + length) →
      (c.hears writes).store.readByte (scriptStart + i) = script[i] := by
  induction writes generalizing c with
  | nil =>
    refine ⟨fun _ none => absurd none List.not_mem_nil, size, fun _ _ => rfl, ?_⟩
    rintro i within (there | ⟨report, none, -⟩)
    · exact there
    · cases none
  | cons report writes ih =>
    obtain ⟨offset, length, piece⟩ := pieces report List.mem_cons_self
    have reply : (c.answer report).reply = .written length :=
      congrArg Outcome.reply (piece.receive room c.session c.store)
    obtain ⟨ok, size', outside, inside⟩ := ih (c := c.hear report)
      ((piece.size_receive room c.session).trans size)
      (fun r among => pieces r (List.mem_cons_of_mem report among))
    refine ⟨List.forall_mem_cons.mpr ⟨reply ▸ Reply.isOk_written length, ok⟩, size', ?_, ?_⟩
    · intro a beyond
      exact (outside a beyond).trans (piece.readByte_outside room size c.session beyond)
    · intro i within known
      refine inside i within ?_
      rcases known with there | ⟨r, among, from', long, other, covers⟩
      · exact .inl (piece.readByte_script room size c.session within (.inl there))
      · rcases List.mem_cons.mp among with rfl | later
        · exact .inl (other.readByte_script room size c.session within (.inr covers))
        · exact .inr ⟨r, later, from', long, other, covers⟩

/-- Once the pieces cover the script, it is there, and the commit that asks for the checksum of the cells puts
the header in front of it. -/
theorem hears_pieces_commit {writes : List Bytes} {commit : Bytes} {header : Header}
    (size : c.store.size = storeSize) (nonempty : script ≠ []) (room : script.length ≤ maxScript)
    (length : header.length.toNat = script.length) (checksum : header.checksum = Checksum.ofBytes script)
    (pieces : ∀ report ∈ writes, ∃ offset length, Piece script report offset length)
    (cover : ∀ i < script.length, ∃ report ∈ writes, ∃ offset length,
      Piece script report offset length ∧ offset ≤ i ∧ i < offset + length)
    (asked : Request.ofReport? commit = some (.commit true header)) :
    (∀ reply ∈ c.replies (writes ++ [commit]), reply.IsOk) ∧
    (c.hears (writes ++ [commit])).store.header = header ∧
    (c.hears (writes ++ [commit])).store.readByte =
      overlaid (overlaid c.store.readByte scriptStart script) 0 header.encode.toList := by
  obtain ⟨ok, size', outside, inside⟩ := hears_pieces size room pieces
  have cells : (c.hears writes).store.readByte = overlaid c.store.readByte scriptStart script :=
    eq_overlaid (fun i within => inside i within (.inr (cover i within))) outside
  have whole : (c.hears writes).store.script script.length = script :=
    Store.script_eq fun i within => inside i within (.inr (cover i within))
  have positive := List.length_pos_iff.mpr nonempty
  have outcome : (c.hears writes).answer commit =
      ⟨.ok, (c.hears writes).session.restarted, (c.hears writes).store.commit header⟩ := by
    rw [answer, Session.receive_eq asked]
    refine Session.commit_of_agrees (by omega) (by omega) ?_
    rw [if_pos rfl, Store.scriptChecksum, length, whole, checksum]
  have store : (c.hears (writes ++ [commit])).store = (c.hears writes).store.commit header := by
    rw [hears_concat]
    exact congrArg Outcome.store outcome
  refine ⟨isOk_replies_concat ok (outcome ▸ Reply.isOk_ok), ?_, ?_⟩
  · rw [store, Store.header_commit]
  · rw [store, Store.readByte_commit, cells]
    rw [size']
    decide

/-! ## In chunks -/

/-- The session and the store of a conversation, as those of a programmer. -/
def programmer (c : Conversation μ) : Programmer μ where
  session := c.session
  store := c.store

theorem hears_chunks {original : Nat → UInt8} {sent : Bytes} {appends chunks : List Bytes}
    (uploading : c.programmer.Uploading original sent)
    (asked : List.Forall₂ (fun chunk report => (Part.append chunk).AskedBy report) chunks appends)
    (fits : ∀ chunk ∈ chunks, (Part.append chunk).Fits)
    (room : (sent ++ chunks.flatten).length ≤ maxScript) :
    (∀ reply ∈ c.replies appends, reply.IsOk) ∧
    (c.hears appends).programmer.Uploading original (sent ++ chunks.flatten) := by
  induction asked generalizing c sent with
  | nil =>
    rw [List.flatten_nil, List.append_nil]
    exact ⟨fun _ none => absurd none List.not_mem_nil, uploading⟩
  | @cons chunk report chunks appends first later ih =>
    rw [List.flatten_cons, ← List.append_assoc] at room ⊢
    have short : (sent ++ chunk).length ≤ maxScript := by
      rw [List.length_append] at room
      omega
    obtain ⟨ok, next⟩ := uploading.received_append first (fits chunk List.mem_cons_self) short
    obtain ⟨oks, done⟩ := ih (c := c.hear report) next
      (fun c among => fits c (List.mem_cons_of_mem chunk among)) room
    exact ⟨List.forall_mem_cons.mpr ⟨ok, oks⟩, done⟩

/-- After a reset and the script in chunks, the running checksum is that of the script, and the commit that
relies on it puts the header in front of it. -/
theorem hears_chunks_commit {reset commit : Bytes} {appends chunks : List Bytes} {header : Header}
    (size : c.store.size = storeSize) (nonempty : chunks.flatten ≠ [])
    (room : chunks.flatten.length ≤ maxScript) (length : header.length.toNat = chunks.flatten.length)
    (checksum : header.checksum = Checksum.ofBytes chunks.flatten)
    (resets : Part.reset.AskedBy reset)
    (asked : List.Forall₂ (fun chunk report => (Part.append chunk).AskedBy report) chunks appends)
    (fits : ∀ chunk ∈ chunks, (Part.append chunk).Fits)
    (commits : Request.ofReport? commit = some (.commit false
      { header with checksum := (c.hears (reset :: appends)).session.checksum })) :
    (∀ reply ∈ c.replies (reset :: appends ++ [commit]), reply.IsOk) ∧
    (c.hears (reset :: appends ++ [commit])).store.header = header ∧
    (c.hears (reset :: appends ++ [commit])).store.readByte =
      overlaid (overlaid c.store.readByte scriptStart chunks.flatten) 0 header.encode.toList := by
  have outcome : c.answer reset = ⟨.ok, c.session.restarted, c.store⟩ :=
    Programmer.received_reset (p := c.programmer) resets
  have begun : (c.hear reset).programmer.Uploading c.store.readByte [] := by
    have restarted : (c.hear reset).programmer = Programmer.ofOutcome (c.answer reset) := rfl
    rw [restarted, outcome]
    exact Programmer.uploading_restarted (p := c.programmer) size
  obtain ⟨oks, done⟩ := hears_chunks begun asked fits room
  have running : (c.hears (reset :: appends)).session.checksum = header.checksum :=
    done.checksum.trans checksum.symm
  rw [running] at commits
  obtain ⟨committed, cells⟩ := done.received_commit commits nonempty room length checksum
  have before : ∀ reply ∈ c.replies (reset :: appends), reply.IsOk :=
    List.forall_mem_cons.mpr ⟨outcome ▸ Reply.isOk_ok, oks⟩
  have answered : (c.hears (reset :: appends)).answer commit =
      ⟨.ok, (c.hears (reset :: appends)).session.restarted,
        (c.hears (reset :: appends)).store.commit header⟩ := committed
  have store : (c.hears (reset :: appends ++ [commit])).store =
      (c.hears (reset :: appends)).store.commit header := by
    rw [hears_concat]
    exact congrArg Outcome.store answered
  refine ⟨isOk_replies_concat before (answered ▸ Reply.isOk_ok), ?_, ?_⟩
  · rw [store, Store.header_commit]
  · rw [store]
    exact cells

/-! ## Either way -/

/-- A script that is written in pieces to its own place, in any order and over each other, and committed under
the checksum of the cells, leaves the same store as the script in chunks, committed under the running
checksum. All requests are accepted either way. -/
theorem same_store_either_way {d : Conversation μ} {header : Header} (size : c.store.size = storeSize)
    (same : d.store = c.store) (nonempty : script ≠ []) (room : script.length ≤ maxScript)
    (length : header.length.toNat = script.length) (checksum : header.checksum = Checksum.ofBytes script)
    {writes : List Bytes} {commit : Bytes}
    (pieces : ∀ report ∈ writes, ∃ offset length, Piece script report offset length)
    (cover : ∀ i < script.length, ∃ report ∈ writes, ∃ offset length,
      Piece script report offset length ∧ offset ≤ i ∧ i < offset + length)
    (commits : Request.ofReport? commit = some (.commit true header))
    {reset commit' : Bytes} {appends chunks : List Bytes} (whole : chunks.flatten = script)
    (resets : Part.reset.AskedBy reset)
    (asked : List.Forall₂ (fun chunk report => (Part.append chunk).AskedBy report) chunks appends)
    (fits : ∀ chunk ∈ chunks, (Part.append chunk).Fits)
    (commits' : Request.ofReport? commit' = some (.commit false
      { header with checksum := (d.hears (reset :: appends)).session.checksum })) :
    (∀ reply ∈ c.replies (writes ++ [commit]), reply.IsOk) ∧
    (∀ reply ∈ d.replies (reset :: appends ++ [commit']), reply.IsOk) ∧
    (c.hears (writes ++ [commit])).store.Alike (d.hears (reset :: appends ++ [commit'])).store := by
  subst whole
  obtain ⟨ok, header₁, cells₁⟩ :=
    hears_pieces_commit size nonempty room length checksum pieces cover commits
  obtain ⟨ok', header₂, cells₂⟩ :=
    hears_chunks_commit (same ▸ size) nonempty room length checksum resets asked fits commits'
  refine ⟨ok, ok', ?_, ?_⟩
  · rw [cells₁, cells₂, same]
  · rw [header₁, header₂]

/-- A session that has appended something, on a store whose cells are all in use. -/
def underway : Conversation Memory where
  session := Programmer.busy.session
  store := Programmer.busy.store

theorem piece_first :
    Piece [0x06, 0x04, 0x00] [0x01, 0x08, 0x00, 0x02, 0x00, 0x06, 0x04] 0 2 where
  positive := by decide
  short := by decide
  inside := by decide
  asked := ⟨[0x06, 0x04] ++ .replicate 25 0x00, by decide, by decide +kernel⟩

theorem piece_second :
    Piece [0x06, 0x04, 0x00] [0x01, 0x09, 0x00, 0x02, 0x00, 0x04, 0x00] 1 2 where
  positive := by decide
  short := by decide
  inside := by decide
  asked := ⟨[0x04, 0x00] ++ .replicate 25 0x00, by decide, by decide +kernel⟩

/-- The second piece comes first, and the first one overlaps it. -/
def inPieces : List Bytes :=
  [[0x01, 0x09, 0x00, 0x02, 0x00, 0x04, 0x00], [0x01, 0x08, 0x00, 0x02, 0x00, 0x06, 0x04]]

def inChunks : List Bytes :=
  [[0x03, 0x02, 0x00, 0x06, 0x04], [0x03, 0x01, 0x00, 0x00]]

theorem same_store_either_way_oneTap :
    (∀ reply ∈ underway.replies (inPieces ++ [(Part.commit .oneTap).report 1]), reply.IsOk) ∧
    (∀ reply ∈ underway.replies ([0x04] :: inChunks ++ [(Part.commit .oneTap).report 0]), reply.IsOk) ∧
    (underway.hears (inPieces ++ [(Part.commit .oneTap).report 1])).store.Alike
      (underway.hears ([0x04] :: inChunks ++ [(Part.commit .oneTap).report 0])).store := by
  have pieces : ∀ report ∈ inPieces, ∃ offset length, Piece [0x06, 0x04, 0x00] report offset length :=
    List.forall_mem_cons.mpr ⟨⟨1, 2, piece_second⟩, List.forall_mem_singleton.mpr ⟨0, 2, piece_first⟩⟩
  have cover : ∀ i < [0x06, 0x04, 0x00].length, ∃ report ∈ inPieces, ∃ offset length,
      Piece [0x06, 0x04, 0x00] report offset length ∧ offset ≤ i ∧ i < offset + length := by
    intro i within
    by_cases early : i < 2
    · exact ⟨_, List.mem_cons_of_mem _ List.mem_cons_self, 0, 2, piece_first, Nat.zero_le i, early⟩
    · exact ⟨_, List.mem_cons_self, 1, 2, piece_second, by omega, within⟩
  have fits : ∀ chunk ∈ [[0x06, 0x04], [0x00]], (Part.append chunk).Fits := by decide
  have asked : List.Forall₂ (fun chunk report => (Part.append chunk).AskedBy report)
      [[0x06, 0x04], [0x00]] inChunks :=
    .cons ⟨[0x06, 0x04] ++ .replicate 27 0x00, by decide, by decide +kernel⟩
      (.cons ⟨.replicate 29 0x00, by decide, by decide +kernel⟩ .nil)
  have commits : Request.ofReport? ((Part.commit .oneTap).report 1) = some (.commit true .oneTap) := by
    decide +kernel
  have commits' : Request.ofReport? ((Part.commit .oneTap).report 0) = some (.commit false
      { Header.oneTap with checksum := (underway.hears ([0x04] :: inChunks)).session.checksum }) := by
    decide +kernel
  have size : underway.store.size = storeSize := by decide +kernel
  have nonempty : ([0x06, 0x04, 0x00] : Bytes) ≠ [] := List.cons_ne_nil _ _
  have room : ([0x06, 0x04, 0x00] : Bytes).length ≤ maxScript := by decide
  have length : Header.oneTap.length.toNat = ([0x06, 0x04, 0x00] : Bytes).length := rfl
  have checksum : Header.oneTap.checksum = Checksum.ofBytes [0x06, 0x04, 0x00] := by
    decide +kernel
  have whole : [[0x06, 0x04], [0x00]].flatten = ([0x06, 0x04, 0x00] : Bytes) := rfl
  have resets : Part.reset.AskedBy [0x04] := Part.askedBy_report_reset 0 []
  exact same_store_either_way size rfl nonempty room length checksum pieces cover commits whole resets asked
    fits commits'

end Conversation

end Autotype
