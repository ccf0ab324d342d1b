import Autotype.Proofs.Checked
import Autotype.Proofs.Control

/-!
# Ticks with every check

Here an engine reads its script byte by byte, as a processor does it: each byte is compared with the length of
the script first, then its address is worked out, its cell is read and the offset goes up by one. Every sum
has to stay a word, also those that the device would cap, so that the first one that does not is a crash.
What is read up to a stop is what stands at the offset (`Checked.instr_eq`), and the cells that are read are
those in between. So a tick of an engine on a script that fits, inside a loop that ends at a word, does not
crash and leads where it should (`Checked.tick_ok`).
-/

namespace Autotype

/-- The offset at which reading what stands at an offset stops. -/
def Decoded.stop (pc : Nat) : Decoded → Nat
  | .whole _ next => next
  | .cut _ offset => offset
  | .unknown _ => pc + 1

namespace Checked

/-- Where a script is read, and the addresses of the cells that were read so far. -/
structure Reader where
  pc : Nat
  cells : List Nat

/-- Why a script is not read on. -/
inductive Stop where
  | crash (why : Crash)
  | fault (why : Fault)

/-- Something that reads a script byte by byte. -/
abbrev Reading (α : Type) := EStateM Stop Reader α

/-- Something that may crash while a script is read. -/
def attempt {α : Type} (result : Checked α) : Reading α := fun r =>
  match result with
  | .ok a => .ok a r
  | .error why => .error (.crash why) r

section

variable {μ : Type} [Medium μ] (store : Store μ) (length : Nat)

/-- The next byte of a script of some length. -/
def fetch : Reading UInt8 := do
  let r ← get
  if length ≤ r.pc then throw (.fault (.truncated r.pc))
  else
    let address ← attempt (add words scriptStart r.pc)
    let b ← attempt (readByte store address)
    set ({ pc := ← attempt (add words r.pc 1), cells := r.cells ++ [address] } : Reader)
    return b

/-- The next bytes of a script, one after the other. -/
def fetchAll : Nat → Reading Bytes
  | 0 => return []
  | count + 1 => do
    let b ← fetch store length
    return b :: (← fetchAll count)

/-- The next instruction of a script. -/
def instr : Reading Instr := do
  let start := (← get).pc
  match ← fetch store length with
  | Opcode.finish => return .finish
  | Opcode.delay =>
    let low ← fetch store length
    let high ← fetch store length
    return .delay (Word.ofBytes low high)
  | Opcode.keyDown => return .keyDown (← fetch store length)
  | Opcode.keyUp => return .keyUp (← fetch store length)
  | Opcode.modifiers => return .modifiers (← fetch store length)
  | Opcode.tap => return .tap (← fetch store length)
  | Opcode.loop =>
    let count ← fetch store length
    let body ← fetch store length
    return .loop count body
  | Opcode.combo =>
    let mask ← fetch store length
    let code ← fetch store length
    return .combo mask code
  | Opcode.text =>
    let count ← fetch store length
    return .text (← fetchAll store length count.toNat)
  | opcode => throw (.fault (.unknownOpcode opcode start))

end

/-- Where an instruction leads that ends at an offset: it may begin a loop, or pass over one. -/
def lead (i : Instr) (pc : Nat) (loop : Option Loop) : Checked (Nat × Option Loop) :=
  match i, loop with
  | .loop count length, none => .ok (pc, some ⟨pc, length.toNat, count.toNat⟩)
  | .loop _ length, some l => do return (← add words pc length.toNat, some l)
  | _, loop => .ok (pc, loop)

/-- The offset and the loop after an instruction, at which the loop may close. -/
def close (pc : Nat) (loop : Option Loop) : Checked (Nat × Option Loop) :=
  match loop with
  | none => .ok (pc, none)
  | some l => do
    let stop ← add words l.start l.length
    if pc < stop then return (pc, some l)
    let remaining := l.remaining - 1
    if 0 < remaining then return (l.start, some { l with remaining := remaining })
    return (pc, none)

/-- A tick: the addresses of the cells that it reads, and where the engine stands after it. -/
def tick {μ : Type} [Medium μ] (store : Store μ) (now : UInt32) (c : Control) : Checked (List Nat × Control) :=
  match c.state with
  | .running =>
    match instr store c.length ⟨c.pc, []⟩ with
    | .ok i r => do
      let led ← lead i r.pc c.loop
      let closed ← close led.1 led.2
      return (r.cells, { c with state := i.stateAfter now, pc := closed.1, loop := closed.2 })
    | .error (.fault why) r => .ok (r.cells, { c with state := .failed, pc := r.pc, fault := some why })
    | .error (.crash why) _ => .error why
  | .delaying since span => .ok ([], if elapsed now since span then { c with state := .running } else c)
  | .idle | .finished | .failed => .ok ([], c)

/-! ## What is read -/

/-- The addresses of the script bytes from one offset to just before another. -/
def cells (start stop : Nat) : List Nat :=
  List.range' (scriptStart + start) (stop - start)

theorem cells_self (start : Nat) : cells start start = [] := by
  rw [cells, Nat.sub_self]
  rfl

theorem cells_succ {start pc : Nat} (after : start ≤ pc) :
    cells start (pc + 1) = cells start pc ++ [scriptStart + pc] := by
  rw [cells, cells, Nat.succ_sub after, List.range'_concat, Nat.one_mul, Nat.add_assoc,
    Nat.add_sub_cancel' after]

theorem exists_of_mem_cells {start stop a : Nat} (mem : a ∈ cells start stop) :
    ∃ i < stop, start ≤ i ∧ a = scriptStart + i := by
  obtain ⟨first, last⟩ := List.mem_range'_1.mp mem
  exact ⟨a - scriptStart, by omega, by omega, by omega⟩

/-- What reading from an offset on comes to if that is what stands there. -/
def outcome (start : Nat) (d : Decoded) : EStateM.Result Stop Reader Instr :=
  let r : Reader := ⟨d.stop start, cells start (d.stop start)⟩
  match d with
  | .whole i _ => .ok i r
  | .cut _ offset => .error (.fault (.truncated offset)) r
  | .unknown opcode => .error (.fault (.unknownOpcode opcode start)) r

section

variable {μ : Type} [Medium μ] {store : Store μ} {length start pc : Nat}

theorem fetch_inside (short : length ≤ maxScript) (after : start ≤ pc) (inside : pc < length) :
    fetch store length ⟨pc, cells start pc⟩ = .ok (store.scriptByte pc) ⟨pc + 1, cells start (pc + 1)⟩ := by
  have small : maxScript < words - scriptStart - 1 := by decide
  have place : add words scriptStart pc = .ok (scriptStart + pc) := add_ok (by omega)
  have next : add words pc 1 = .ok (pc + 1) := add_ok (by omega)
  have more : ¬length ≤ pc := Nat.not_le.mpr inside
  rw [cells_succ after]
  show (ite (length ≤ pc) _ _ : Reading UInt8) ⟨pc, cells start pc⟩ = _
  rw [if_neg more]
  simp only [bind, EStateM.bind, attempt, place, readByte_ok, next]
  rfl

theorem fetch_beyond (beyond : length ≤ pc) (read : List Nat) :
    fetch store length ⟨pc, read⟩ = .error (.fault (.truncated pc)) ⟨pc, read⟩ := by
  show (ite (length ≤ pc) _ _ : Reading UInt8) ⟨pc, read⟩ = _
  rw [if_pos beyond]
  rfl

/-- Reading a byte and going on is what stands there if going on is. -/
theorem fetch_bind_eq (short : length ≤ maxScript) (after : start ≤ pc) {rest : UInt8 → Reading Instr}
    {next : UInt8 → Decoded}
    (later : ∀ b, pc < length → rest b ⟨pc + 1, cells start (pc + 1)⟩ = outcome start (next b)) :
    (fetch store length >>= rest) ⟨pc, cells start pc⟩ =
      outcome start (Script.fetch ⟨length, store.scriptByte⟩ pc next) := by
  show EStateM.bind (fetch store length) rest ⟨pc, cells start pc⟩ = _
  unfold EStateM.bind Script.fetch
  by_cases inside : pc < length
  · rw [fetch_inside short after inside, if_pos inside]
    exact later _ inside
  · rw [fetch_beyond (Nat.le_of_not_lt inside), if_neg inside]
    rfl

theorem fetchAll_eq (short : length ≤ maxScript) (after : start ≤ pc) (count : Nat) :
    fetchAll store length count ⟨pc, cells start pc⟩ =
      if count ≤ length - pc then
        .ok (Script.slice ⟨length, store.scriptByte⟩ pc count) ⟨pc + count, cells start (pc + count)⟩
      else
        .error (.fault (.truncated (pc + (length - pc)))) ⟨pc + (length - pc), cells start (pc + (length - pc))⟩ := by
  induction count generalizing pc with
  | zero => rfl
  | succ count ih =>
    simp only [fetchAll, bind, EStateM.bind]
    by_cases inside : pc < length
    · have slice : Script.slice ⟨length, store.scriptByte⟩ pc (count + 1) =
          store.scriptByte pc :: Script.slice ⟨length, store.scriptByte⟩ (pc + 1) count := by
        simp only [Script.slice, List.range_succ_eq_map, List.map_cons, List.map_map, Nat.add_zero,
          Function.comp_def, Nat.succ_eq_add_one, Nat.add_assoc, Nat.add_comm 1]
      have next : pc + 1 + count = pc + (count + 1) := by omega
      have last : pc + 1 + (length - (pc + 1)) = pc + (length - pc) := by omega
      have rest := ih (show start ≤ pc + 1 by omega)
      rw [next, last] at rest
      simp only [fetch_inside short after inside, rest]
      by_cases all : count ≤ length - (pc + 1)
      · rw [if_pos all, if_pos (by omega), slice]
        rfl
      · rw [if_neg all, if_neg (by omega)]
    · have none : length - pc = 0 := by omega
      rw [fetch_beyond (Nat.le_of_not_lt inside), none, if_neg (Nat.not_succ_le_zero count)]
      rfl

/-- Byte by byte, what stands at an offset is found there, or the fault that there is. -/
theorem instr_eq (store : Store μ) (short : length ≤ maxScript) (pc : Nat) :
    instr store length ⟨pc, []⟩ = outcome pc (Script.decode ⟨length, store.scriptByte⟩ pc) := by
  have first : pc ≤ pc := Nat.le_refl pc
  have second : pc ≤ pc + 1 := Nat.le_succ pc
  have third : pc ≤ pc + 2 := Nat.le_add_right pc 2
  rw [← cells_self pc]
  show (fetch store length >>= _) _ = _
  refine fetch_bind_eq short first fun opcode _ => ?_
  split
  case h_1 => rfl
  case h_2 | h_7 | h_8 =>
    exact fetch_bind_eq short second fun _ _ => fetch_bind_eq short third fun _ _ => rfl
  case h_3 | h_4 | h_5 | h_6 => exact fetch_bind_eq short second fun _ _ => rfl
  case h_9 =>
    refine fetch_bind_eq short second fun count _ => ?_
    show EStateM.bind (fetchAll store length count.toNat) _ _ = _
    rw [EStateM.bind, fetchAll_eq short third, Script.decodeText]
    by_cases all : count.toNat ≤ length - (pc + 2)
    · rw [if_pos all, if_pos (Nat.min_eq_left all)]
      rfl
    · have cut : min count.toNat (length - (pc + 2)) = length - (pc + 2) := by omega
      rw [if_neg all, cut, if_neg (by omega)]
      rfl
  case h_10 =>
    -- that the opcode is none of the others decides the match on the right, too
    simp only [outcome, *]
    rfl

end

end Checked

/-! ## Where reading stops -/

namespace Script

variable {s : Script} {pc : Nat}

theorem cut_of_fetch {next : UInt8 → Decoded} {typed : Bytes} {offset : Nat}
    (h : s.fetch pc next = .cut typed offset) :
    s.length ≤ pc ∧ offset = pc ∨ pc < s.length ∧ next (s.byteAt pc) = .cut typed offset := by
  unfold Script.fetch at h
  split at h
  · next inside => exact .inr ⟨inside, h⟩
  · next beyond =>
    cases h
    exact .inl ⟨Nat.le_of_not_lt beyond, rfl⟩

theorem unknown_of_fetch {next : UInt8 → Decoded} {opcode : UInt8} (h : s.fetch pc next = .unknown opcode) :
    pc < s.length ∧ next (s.byteAt pc) = .unknown opcode := by
  unfold Script.fetch at h
  split at h
  · next inside => exact ⟨inside, h⟩
  · cases h

/-- A whole instruction ends inside the script. -/
theorem bounds_of_whole {i : Instr} {next : Nat} (read : s.decode pc = .whole i next) :
    pc < next ∧ next ≤ s.length := by
  obtain ⟨laid, -, past⟩ := hasAt_of_decode read
  have some : 0 < i.encode.length := by cases i <;> exact Nat.succ_pos _
  have start : pc < s.length := (laid 0 some).1
  have stop := laid.le (Nat.le_of_lt start)
  exact ⟨by omega, by rw [past]; exact stop⟩

/-- What is cut off is so at the end of the script, or where reading begins behind it. -/
theorem offset_of_cut {typed : Bytes} {offset : Nat} (read : s.decode pc = .cut typed offset) :
    offset = max pc s.length := by
  rcases cut_of_fetch read with ⟨beyond, rfl⟩ | ⟨inside, read⟩
  · omega
  · split at read
    case h_1 | h_10 => cases read
    case h_3 | h_4 | h_5 | h_6 =>
      rcases cut_of_fetch read with ⟨_, rfl⟩ | ⟨_, read⟩
      · omega
      · cases read
    case h_2 | h_7 | h_8 =>
      rcases cut_of_fetch read with ⟨_, rfl⟩ | ⟨_, read⟩
      · omega
      · rcases cut_of_fetch read with ⟨_, rfl⟩ | ⟨_, read⟩
        · omega
        · cases read
    case h_9 =>
      rcases cut_of_fetch read with ⟨_, rfl⟩ | ⟨counted, read⟩
      · omega
      · simp only [decodeText] at read
        split at read
        · cases read
        · cases read
          omega

/-- What is no instruction begins with a byte of the script that is none of the opcodes. -/
theorem byte_of_unknown {opcode : UInt8} (read : s.decode pc = .unknown opcode) :
    pc < s.length ∧ s.byteAt pc = opcode ∧ 8 < opcode.toNat := by
  obtain ⟨inside, read⟩ := unknown_of_fetch read
  refine ⟨inside, ?_⟩
  split at read
  case h_1 => cases read
  case h_2 | h_7 | h_8 => cases (unknown_of_fetch (unknown_of_fetch read).2).2
  case h_3 | h_4 | h_5 | h_6 => cases (unknown_of_fetch read).2
  case h_9 =>
    have text := (unknown_of_fetch read).2
    simp only [decodeText] at text
    split at text <;> cases text
  case h_10 no0 no1 no2 no3 no4 no5 no6 no7 no8 =>
    cases read
    refine ⟨rfl, ?_⟩
    simp only [← UInt8.toNat_inj, UInt8.toNat_ofBitVec, BitVec.toNat_ofNat, Nat.reducePow, Nat.reduceMod, imp_false]
      at no0 no1 no2 no3 no4 no5 no6 no7 no8
    omega

end Script

namespace Checked

/-! ## A tick -/

theorem lead_ok (i : Instr) {pc : Nat} (loop : Option Loop) (short : pc ≤ maxScript) :
    lead i pc loop = .ok (i.leadsTo pc loop) := by
  cases i with
  | loop count length =>
    cases loop with
    | none => rfl
    | some l =>
      have few := length.toNat_lt
      have room : maxScript + 256 < words := by decide
      rw [lead, add_ok (by omega), ok_bind]
      rfl
  | _ => rfl

theorem close_ok (pc : Nat) {loop : Option Loop} (fits : ∀ l, loop = some l → l.stop < words) :
    close pc loop = .ok (Loop.closed loop pc) := by
  cases loop with
  | none => rfl
  | some l =>
    have stop : add words l.start l.length = .ok l.stop := add_ok (fits l rfl)
    simp only [close, Loop.closed, stop, ok_bind, pure_eq_ok, Nat.sub_pos_iff_lt]
    by_cases inside : pc < l.stop
    · rw [if_pos inside, if_pos inside]
    · rw [if_neg inside, if_neg inside]
      split <;> rfl

/-- The loop that is run, or begun in a script that fits, ends at a word. -/
theorem stop_leadsTo_lt (i : Instr) {pc : Nat} {loop : Option Loop} (short : pc ≤ maxScript)
    (fits : ∀ l, loop = some l → l.stop < words) : ∀ l, (i.leadsTo pc loop).2 = some l → l.stop < words := by
  cases loop with
  | some l =>
    cases i with
    | _ => exact fits
  | none =>
    cases i with
    | loop count length =>
      rintro l ⟨⟩
      have few := length.toNat_lt
      have room : maxScript + 256 < words := by decide
      show pc + length.toNat < words
      omega
    | _ =>
      intro l active
      cases active

/-- A tick of an engine on a script that fits, in a loop that ends at a word, leads where it should without a
crash, and reads only cells of the script. -/
theorem tick_ok {μ : Type} [Medium μ] (store : Store μ) (now : UInt32) {c : Control}
    (short : c.length ≤ maxScript) (fits : ∀ l, c.loop = some l → l.stop < words) :
    ∃ read, tick store now c = .ok (read, c.tick store.scriptByte now) ∧
      ∀ a ∈ read, ∃ i < c.length, a = scriptStart + i := by
  have nothing : ∀ a ∈ ([] : List Nat), ∃ i < c.length, a = scriptStart + i := fun _ mem => nomatch mem
  rw [tick, Control.tick]
  cases state : c.state with
  | running =>
    simp only [instr_eq store short]
    cases read : Script.decode ⟨c.length, store.scriptByte⟩ c.pc with
    | whole i next =>
      obtain ⟨-, inside⟩ := Script.bounds_of_whole read
      have within : next ≤ maxScript := Nat.le_trans inside short
      refine ⟨cells c.pc next, ?_, fun a mem => ?_⟩
      · simp only [outcome, Decoded.stop, lead_ok i c.loop within, ok_bind,
          close_ok _ (stop_leadsTo_lt i within fits), pure_eq_ok]
        rfl
      · obtain ⟨j, before, -, place⟩ := exists_of_mem_cells mem
        exact ⟨j, Nat.lt_of_lt_of_le before inside, place⟩
    | cut typed offset =>
      have last : offset = max c.pc c.length := Script.offset_of_cut read
      refine ⟨cells c.pc offset, rfl, fun a mem => ?_⟩
      obtain ⟨j, before, after, place⟩ := exists_of_mem_cells mem
      exact ⟨j, by omega, place⟩
    | unknown opcode =>
      obtain ⟨inside, -⟩ := Script.byte_of_unknown read
      refine ⟨cells c.pc (c.pc + 1), rfl, fun a mem => ?_⟩
      obtain ⟨j, before, -, place⟩ := exists_of_mem_cells mem
      exact ⟨j, Nat.lt_of_lt_of_le before inside, place⟩
  | delaying since span => exact ⟨[], rfl, nothing⟩
  | idle | finished | failed => exact ⟨[], rfl, nothing⟩

end Checked

end Autotype
