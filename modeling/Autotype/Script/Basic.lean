import Autotype.Script.Instr

/-!
# Scripts

A script is read one instruction at a time. Reading stops where the script does, so besides a whole
instruction it may find one that is cut off, of which only the characters of a text matter: those that
are there are typed before the script fails. The main statement is `Script.decode_of_hasAt`: where an
instruction was laid out, reading finds it and the offset just past it; and where reading finds one, it
was laid out (`Script.hasAt_of_decode`).
-/

namespace Autotype

/-- A script as it is read: its length and the bytes at its offsets. -/
structure Script where
  length : Nat
  byteAt : Nat → UInt8

/-- What stands at an offset of a script. -/
inductive Decoded where
  /-- A whole instruction, and the offset just past it. -/
  | whole (instr : Instr) (next : Nat)
  /-- An instruction that goes on past the end of the script: the characters of it that are there, if it
  is a text, and the offset of the first byte that is missing. -/
  | cut (typed : Bytes) (offset : Nat)
  | unknown (opcode : UInt8)
  deriving DecidableEq, Repr

namespace Script

/-- The script that consists of the given bytes. -/
def ofBytes (bytes : Bytes) : Script where
  length := bytes.length
  byteAt offset := bytes.getD offset 0

/-- The bytes of a script at `count` offsets from `offset` on. -/
def slice (s : Script) (offset count : Nat) : Bytes :=
  (List.range count).map fun i => s.byteAt (offset + i)

/-- Goes on with the byte at an offset, unless the script ends before it. -/
def fetch (s : Script) (offset : Nat) (next : UInt8 → Decoded) : Decoded :=
  if offset < s.length then next (s.byteAt offset) else .cut [] offset

/-- The text of `count` characters that begins at an offset, as far as the script goes. -/
def decodeText (s : Script) (offset count : Nat) : Decoded :=
  let available := min count (s.length - offset)
  if available = count then .whole (.text (s.slice offset count)) (offset + count)
  else .cut (s.slice offset available) (offset + available)

/-- What stands at an offset of a script. -/
def decode (s : Script) (pc : Nat) : Decoded :=
  s.fetch pc fun
    | Opcode.finish => .whole .finish (pc + 1)
    | Opcode.delay =>
      s.fetch (pc + 1) fun low => s.fetch (pc + 2) fun high =>
        .whole (.delay (Word.ofBytes low high)) (pc + 3)
    | Opcode.keyDown => s.fetch (pc + 1) fun code => .whole (.keyDown code) (pc + 2)
    | Opcode.keyUp => s.fetch (pc + 1) fun code => .whole (.keyUp code) (pc + 2)
    | Opcode.modifiers => s.fetch (pc + 1) fun mask => .whole (.modifiers mask) (pc + 2)
    | Opcode.tap => s.fetch (pc + 1) fun code => .whole (.tap code) (pc + 2)
    | Opcode.loop =>
      s.fetch (pc + 1) fun count => s.fetch (pc + 2) fun length =>
        .whole (.loop count length) (pc + 3)
    | Opcode.combo =>
      s.fetch (pc + 1) fun mask => s.fetch (pc + 2) fun code =>
        .whole (.combo mask code) (pc + 3)
    | Opcode.text => s.fetch (pc + 1) fun count => s.decodeText (pc + 2) count.toNat
    | opcode => .unknown opcode

/-! ## Reading what was written -/

/-- Whether bytes are laid out in a script from an offset on. -/
def HasAt (s : Script) (pc : Nat) (bytes : Bytes) : Prop :=
  ∀ (j : Nat) (h : j < bytes.length), pc + j < s.length ∧ s.byteAt (pc + j) = bytes[j]

theorem HasAt.head {s : Script} {pc : Nat} {b : UInt8} {bs : Bytes} (h : s.HasAt pc (b :: bs)) :
    pc < s.length ∧ s.byteAt pc = b :=
  h 0 (Nat.succ_pos _)

theorem HasAt.tail {s : Script} {pc : Nat} {b : UInt8} {bs : Bytes} (h : s.HasAt pc (b :: bs)) :
    s.HasAt (pc + 1) bs := by
  intro j hj
  have later := h (j + 1) (Nat.succ_lt_succ hj)
  rwa [Nat.add_right_comm, Nat.add_assoc]

theorem HasAt.slice {s : Script} {pc : Nat} {bs : Bytes} (h : s.HasAt pc bs) :
    s.slice pc bs.length = bs := by
  apply List.ext_getElem
  · simp [Script.slice]
  · intro i _ hi
    simp [Script.slice, (h i hi).2]

theorem HasAt.le {s : Script} {pc : Nat} {bs : Bytes} (h : s.HasAt pc bs) (start : pc ≤ s.length) :
    pc + bs.length ≤ s.length := by
  cases bs with
  | nil => exact start
  | cons b bs =>
    have last := (h bs.length (Nat.lt_succ_self _)).1
    simp only [List.length_cons]
    omega

theorem HasAt.fetch {s : Script} {pc : Nat} {b : UInt8} {bs : Bytes} (h : s.HasAt pc (b :: bs))
    (next : UInt8 → Decoded) : s.fetch pc next = next b := by
  rw [Script.fetch, if_pos h.head.1, h.head.2]

theorem HasAt.decodeText {s : Script} {pc : Nat} {chars : Bytes} (h : s.HasAt pc chars)
    (start : pc ≤ s.length) :
    s.decodeText pc chars.length = .whole (.text chars) (pc + chars.length) := by
  have fits := h.le start
  have available : min chars.length (s.length - pc) = chars.length := by omega
  simp only [Script.decodeText, available, if_true, h.slice]

/-- Reading finds the instruction that was written. -/
theorem decode_of_hasAt {s : Script} {pc : Nat} {i : Instr} (h : s.HasAt pc i.encode)
    (fits : i.Fits) : s.decode pc = .whole i (pc + i.encode.length) := by
  cases i with
  | text chars =>
    have count : (UInt8.ofNat chars.length).toNat = chars.length :=
      Nat.mod_eq_of_lt fits
    have laid := h.tail.tail.decodeText h.tail.head.1
    simp only [decode, h.fetch, h.tail.fetch, count]
    rw [laid]
    have next : pc + 1 + 1 + chars.length = pc + (Instr.text chars).encode.length := by
      simp only [Instr.encode, List.length_cons]
      omega
    rw [next]
    rfl
  | delay ms =>
    simp only [decode, h.fetch, h.tail.fetch, h.tail.tail.fetch, Word.ofBytes_low_high]
    rfl
  | finish =>
    simp only [decode, h.fetch]
    rfl
  | keyDown _ | keyUp _ | modifiers _ | tap _ =>
    simp only [decode, h.fetch, h.tail.fetch]
    rfl
  | loop _ _ | combo _ _ =>
    simp only [decode, h.fetch, h.tail.fetch, h.tail.tail.fetch]
    rfl

/-! ## Writing what was read -/

theorem HasAt.nil (s : Script) (pc : Nat) : s.HasAt pc [] := by
  intro j hj
  exact absurd hj (Nat.not_lt_zero j)

theorem HasAt.cons {s : Script} {pc : Nat} {b : UInt8} {bs : Bytes} (inside : pc < s.length)
    (byte : s.byteAt pc = b) (rest : s.HasAt (pc + 1) bs) : s.HasAt pc (b :: bs) := by
  intro j hj
  cases j with
  | zero => exact ⟨inside, byte⟩
  | succ j =>
    have later := rest j (Nat.lt_of_succ_lt_succ hj)
    rwa [Nat.add_right_comm, Nat.add_assoc] at later

theorem hasAt_slice {s : Script} {pc count : Nat} (fits : count ≤ s.length - pc) :
    s.HasAt pc (s.slice pc count) := by
  intro j hj
  have inside : j < count := by simpa [slice] using hj
  exact ⟨by omega, by simp [slice]⟩

theorem whole_of_fetch {s : Script} {pc n : Nat} {i : Instr} {next : UInt8 → Decoded}
    (h : s.fetch pc next = .whole i n) :
    pc < s.length ∧ next (s.byteAt pc) = .whole i n := by
  unfold Script.fetch at h
  split at h
  · next inside => exact ⟨inside, h⟩
  · cases h

theorem text_of_decodeText {s : Script} {pc count n : Nat} {i : Instr}
    (h : s.decodeText pc count = .whole i n) :
    i = .text (s.slice pc count) ∧ n = pc + count ∧ count ≤ s.length - pc := by
  simp only [Script.decodeText] at h
  split at h
  · next all =>
    cases h
    exact ⟨rfl, rfl, by omega⟩
  · cases h

/-- Reading finds an instruction only where it was written. -/
theorem hasAt_of_decode {s : Script} {pc n : Nat} {i : Instr} (h : s.decode pc = .whole i n) :
    s.HasAt pc i.encode ∧ i.Fits ∧ n = pc + i.encode.length := by
  obtain ⟨inside, h⟩ := whole_of_fetch h
  split at h
  case h_1 opcode =>
    cases h
    exact ⟨.cons inside opcode (.nil _ _), trivial, rfl⟩
  case h_2 opcode =>
    obtain ⟨low, h⟩ := whole_of_fetch h
    obtain ⟨high, h⟩ := whole_of_fetch h
    cases h
    refine ⟨.cons inside opcode (.cons low ?_ (.cons high ?_ (.nil _ _))), trivial, rfl⟩
    · rw [Word.low_ofBytes]
    · rw [Word.high_ofBytes]
  case h_3 opcode | h_4 opcode | h_5 opcode | h_6 opcode =>
    obtain ⟨operand, h⟩ := whole_of_fetch h
    cases h
    exact ⟨.cons inside opcode (.cons operand rfl (.nil _ _)), trivial, rfl⟩
  case h_7 opcode | h_8 opcode =>
    obtain ⟨first, h⟩ := whole_of_fetch h
    obtain ⟨second, h⟩ := whole_of_fetch h
    cases h
    exact ⟨.cons inside opcode (.cons first rfl (.cons second rfl (.nil _ _))), trivial, rfl⟩
  case h_9 opcode =>
    obtain ⟨counted, h⟩ := whole_of_fetch h
    obtain ⟨chars, past, fits⟩ := text_of_decodeText h
    have long : (s.slice (pc + 2) (s.byteAt (pc + 1)).toNat).length = (s.byteAt (pc + 1)).toNat := by
      rw [slice, List.length_map, List.length_range]
    subst chars
    refine ⟨.cons inside opcode (.cons counted ?_ (hasAt_slice fits)), ?_, ?_⟩
    · rw [long, UInt8.ofNat_toNat]
    · rw [Instr.Fits, long]
      exact UInt8.toNat_lt _
    · rw [past, Instr.encode, List.length_cons, List.length_cons, long]
      omega
  case h_10 => cases h

end Script

end Autotype
