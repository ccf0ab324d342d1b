import Autotype.Proofs.Committed
import Autotype.Proofs.Replies

/-!
# How far a store reaches

Requests are held against the size of a whole store, but a store reaches no further than its medium, and
what is put beyond that is dropped without a word. So an accepted write or append is stored on a medium of
full size, and on a smaller one just if nothing of it was dropped but bytes that an address without a cell
reads as anyway (`Session.stored_iff`).
-/

namespace Autotype

namespace Store

variable {μ : Type} [Medium μ]

/-- Whether of these bytes, put to the addresses from `start` on, all those that fall beyond the store are
the one that is read there. -/
def HasRoomFor (s : Store μ) (start : Nat) (bytes : Bytes) : Prop :=
  ∀ i, (inside : i < bytes.length) → s.size ≤ start + i → bytes[i] = erased

instance (s : Store μ) (start : Nat) (bytes : Bytes) : Decidable (s.HasRoomFor start bytes) :=
  inferInstanceAs (Decidable (∀ i, (inside : i < bytes.length) → s.size ≤ start + i → bytes[i] = erased))

variable [LawfulMedium μ]

theorem readByte_writeBlock_add (s : Store μ) (start : Nat) (bytes : Bytes) {i : Nat}
    (inside : i < bytes.length) :
    (s.writeBlock start bytes).readByte (start + i) =
      if start + i < s.size then bytes[i] else erased := by
  rw [readByte_writeBlock]
  by_cases cell : start + i < s.size
  · rw [if_pos cell, dif_pos ⟨Nat.le_add_right start i, by omega, cell⟩, List.get_eq_getElem]
    simp only [Nat.add_sub_cancel_left]
  · rw [if_neg cell, dif_neg (by omega), readByte_of_beyond (Nat.le_of_not_lt cell)]

/-- A block that was written is read back just if the store has room for it. -/
theorem readBlock_writeBlock_iff (s : Store μ) (start : Nat) (bytes : Bytes) :
    (s.writeBlock start bytes).readBlock start bytes.length = bytes ↔ s.HasRoomFor start bytes := by
  rw [readBlock_eq_iff]
  refine forall_congr' fun i => forall_congr' fun inside => ?_
  rw [readByte_writeBlock_add s start bytes inside]
  by_cases cell : start + i < s.size
  · rw [if_pos cell]
    exact iff_of_true rfl fun beyond => absurd cell (Nat.not_lt.mpr beyond)
  · rw [if_neg cell]
    exact ⟨fun same _ => same.symm, fun same => (same (Nat.le_of_not_lt cell)).symm⟩

end Store

namespace Session

variable {μ : Type} [Medium μ] [LawfulMedium μ] {s : Session} {store : Store μ}

/-- What an accepted write put into the store is what a read of the same span is answered with, just if the
store has room for it. -/
theorem read_after_write_iff {f : Vector UInt8 reportSize} {address length : Nat} {payload : Bytes}
    (framed : Request.ofFrame? f = some (.write address length payload))
    (ok : (s.write store address length payload).reply.IsOk) :
    ((s.write store address length payload).session.read
        (s.write store address length payload).store address length).reply =
      .contents (payload.take length) ↔ store.HasRoomFor address (payload.take length) := by
  obtain ⟨inside, positive, short, fits⟩ := (isOk_write_iff s store address length payload).mp ok
  have long : (payload.take length).length = length := by
    rw [List.length_take, Request.payload_write framed]
    exact Nat.min_eq_left short
  have reads : Request.maxWrite ≤ Request.maxRead := by decide
  rw [write_of_fits positive short fits]
  generalize payload.take length = bytes at long
  subst long
  rw [read_of_isOk ((isOk_read_iff s _ address _).mpr ⟨inside, positive, Nat.le_trans short reads, fits⟩),
    Reply.contents.injEq, Store.readBlock_writeBlock_iff]

/-- What an accepted append put into the store is found from the offset at which it began, just if the store
has room for it. -/
theorem script_after_append_iff {f : Vector UInt8 reportSize} {length : Nat} {payload : Bytes}
    (framed : Request.ofFrame? f = some (.append length payload))
    (ok : (s.append store length payload).reply.IsOk) :
    (List.range length).map (fun i => (s.append store length payload).store.scriptByte (s.offset + i)) =
      payload.take length ↔ store.HasRoomFor (scriptStart + s.offset) (payload.take length) := by
  obtain ⟨positive, short, fits⟩ := (isOk_append_iff s store length payload).mp ok
  have long : (payload.take length).length = length := by
    rw [List.length_take, Request.payload_append framed]
    exact Nat.min_eq_left short
  rw [append_of_fits positive short fits]
  generalize payload.take length = bytes at long
  subst long
  rw [← Store.readBlock_writeBlock_iff]
  simp only [Store.readBlock, Store.scriptByte, Nat.add_assoc]

/-- On whatever medium and in whatever session: a write or an append that is accepted can be read back right
afterwards, by a read of the same span or byte by byte from the offset at which it began, just if the store
has room for it, that is, if of its bytes all those that fall beyond the medium are the one that is read
there. -/
theorem stored_iff (s : Session) (store : Store μ) (report : Bytes)
    (ok : (s.receive store report).reply.IsOk) :
    (∀ address length payload, Request.ofReport? report = some (.write address length payload) →
      (((s.receive store report).session.read (s.receive store report).store address length).reply =
        .contents (payload.take length) ↔ store.HasRoomFor address (payload.take length))) ∧
    ∀ length payload, Request.ofReport? report = some (.append length payload) →
      ((List.range length).map (fun i => (s.receive store report).store.scriptByte (s.offset + i)) =
        payload.take length ↔ store.HasRoomFor (scriptStart + s.offset) (payload.take length)) := by
  constructor
  · intro address length payload asked
    obtain ⟨f, framed⟩ := Request.exists_frame asked
    rw [receive_eq asked, handle] at ok ⊢
    exact read_after_write_iff framed ok
  · intro length payload asked
    obtain ⟨f, framed⟩ := Request.exists_frame asked
    rw [receive_eq asked, handle] at ok ⊢
    exact script_after_append_iff framed ok

/-- A memory that ends within what is written to it, and the byte that is dropped is an erased one. -/
theorem stored_iff_tenCells :
    let store := Store.mount ({ capacity := 10 } : Memory)
    let report : Bytes := [0x01, 0x08, 0x00, 0x03, 0x00, 0x2A, 0x2B, 0xFF]
    (receive {} store report).reply.IsOk ∧
    Request.ofReport? report = some (.write 8 3 (0x2A :: 0x2B :: 0xFF :: .replicate 24 0x00)) ∧
    ((receive {} store report).session.read (receive {} store report).store 8 3).reply =
      .contents [0x2A, 0x2B, 0xFF] := by
  intro store report
  have ok : (receive {} store report).reply.IsOk := by decide +kernel
  have asked : Request.ofReport? report = some (.write 8 3 (0x2A :: 0x2B :: 0xFF :: .replicate 24 0x00)) := by
    decide +kernel
  have stored := ((stored_iff {} store report ok).1 8 3 _ asked).mpr (by decide +kernel)
  exact ⟨ok, asked, stored⟩

/-- A write behind the end of a memory of 256 cells is accepted, and its byte is dropped. -/
theorem not_stored_beyond_capacity :
    ¬ ∀ (m : Memory) (s : Session) (report : Bytes), (s.receive (.mount m) report).reply.IsOk →
      ∀ address length payload, Request.ofReport? report = some (.write address length payload) →
        ((s.receive (.mount m) report).session.read (s.receive (.mount m) report).store address
          length).reply = .contents (payload.take length) := by
  intro stored
  have read := stored { capacity := 256 } {} [0x01, 0x00, 0x01, 0x01, 0x00, 0x2A] (by decide +kernel) 256 1
    (0x2A :: .replicate 26 0x00) (by decide +kernel)
  revert read
  decide +kernel

end Session

end Autotype
