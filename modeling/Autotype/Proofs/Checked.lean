import Autotype.Proofs.Effect

/-!
# Requests with every check

Here a report is taken in as a processor does it: sums have to stay words or sizes, an index or a slice has
to lie in its array, a medium has no cells but those it reports, and each of these is checked where it is
needed. The first check that fails is a crash, and nothing after it happens. An operation that stays in
range answers as its counterpart without checks does; there is one lemma for each of them, and from these
the handlers of the requests are put together elsewhere.
-/

namespace Autotype

/-- Why a processor cannot go on. -/
inductive Crash where
  /-- A sum does not fit its type. -/
  | overflow
  /-- There is no such place in an array, or no such cell. -/
  | outOfRange
  deriving DecidableEq, Repr

/-- The result of something that may crash. -/
abbrev Checked := Except Crash

namespace Checked

@[simp] theorem ok_bind {α β : Type} (a : α) (f : α → Checked β) : (Except.ok a >>= f : Checked β) = f a :=
  rfl

@[simp] theorem pure_eq_ok {α : Type} (a : α) : (pure a : Checked α) = .ok a :=
  rfl

/-! ## Sums -/

/-- The number of words, which take two bytes. -/
abbrev words : Nat := 0x10000

/-- The number of sizes, which take four bytes. -/
abbrev sizes : Nat := 0x100000000

/-- A sum that has to stay below a limit. -/
def add (limit a b : Nat) : Checked Nat :=
  if a + b < limit then .ok (a + b) else .error .overflow

/-- The address of a place in a block, if it is a word. -/
def address? (base i : Nat) : Option Nat :=
  if base + i < words then some (base + i) else none

theorem add_ok {limit a b : Nat} (fits : a + b < limit) : add limit a b = .ok (a + b) :=
  if_pos fits

/-- Places in a report are far from the end of the sizes. -/
theorem add_sizes_ok {a b : Nat} (inside : a + b ≤ reportSize) : add sizes a b = .ok (a + b) :=
  add_ok (Nat.lt_of_le_of_lt inside (by decide))

theorem address?_some {base i : Nat} (fits : base + i < words) :
    address? base i = some (base + i) :=
  if_pos fits

theorem address?_none {base i : Nat} (beyond : words ≤ base + i) : address? base i = none :=
  if_neg (Nat.not_lt.mpr beyond)

/-! ## Arrays -/

def index (array : Bytes) (i : Nat) : Checked UInt8 :=
  match array[i]? with
  | some b => .ok b
  | none => .error .outOfRange

/-- The bytes of an array from one index to just before another. -/
def slice (array : Bytes) (start stop : Nat) : Checked Bytes :=
  if start ≤ stop ∧ stop ≤ array.length then .ok ((array.take stop).drop start) else .error .outOfRange

/-- Gives one place of an array another content. -/
def put (array : Bytes) (i : Nat) (b : UInt8) : Checked Bytes :=
  if i < array.length then .ok (array.set i b) else .error .outOfRange

/-- Copies bytes to a slice of an array, which must be as long as they are. -/
def copy (array : Bytes) (start stop : Nat) (bytes : Bytes) : Checked Bytes :=
  if start ≤ stop ∧ stop ≤ array.length ∧ bytes.length = stop - start then
    .ok (array.take start ++ bytes ++ array.drop stop)
  else .error .outOfRange

theorem index_ok {array : Bytes} {i : Nat} (inside : i < array.length) :
    index array i = .ok array[i] := by
  rw [index, List.getElem?_eq_getElem inside]

theorem slice_ok {array : Bytes} {start stop : Nat} (ordered : start ≤ stop)
    (inside : stop ≤ array.length) : slice array start stop = .ok ((array.take stop).drop start) :=
  if_pos ⟨ordered, inside⟩

theorem put_ok {array : Bytes} {i : Nat} (b : UInt8) (inside : i < array.length) :
    put array i b = .ok (array.set i b) :=
  if_pos inside

theorem copy_ok {array bytes : Bytes} {start stop : Nat} (inside : stop ≤ array.length)
    (long : start + bytes.length = stop) :
    copy array start stop bytes = .ok (array.take start ++ bytes ++ array.drop stop) :=
  if_pos ⟨by omega, inside, by omega⟩

/-! ## Frames -/

/-- A report brought to its full size. -/
def frame (report : Bytes) : Checked Bytes := do
  let count := min report.length reportSize
  copy (.replicate reportSize 0) 0 count (← slice report 0 count)

/-- The word at an index of a frame. -/
def word (f : Bytes) (i : Nat) : Checked UInt16 := do
  return Word.ofBytes (← index f i) (← index f (← add sizes i 1))

/-- So many bytes of a frame. -/
def data (f : Bytes) (i length : Nat) : Checked Bytes := do
  slice f i (← add sizes i length)

theorem frame_ok (report : Bytes) : frame report = .ok (Request.frame report).toList := by
  have cut : (report.take (min report.length reportSize)).length = min report.length reportSize := by
    rw [List.length_take]
    omega
  rw [frame, slice_ok (Nat.zero_le _) (Nat.min_le_left _ _), ok_bind, List.drop_zero,
    copy_ok (by rw [List.length_replicate]; exact Nat.min_le_right _ _) (by rw [cut, Nat.zero_add])]
  refine congrArg Except.ok (List.ext_getElem ?_ ?_)
  · simp only [List.length_append, cut, List.length_drop, List.length_replicate, List.take_zero,
      List.length_nil, Vector.length_toList]
    omega
  · intro i _ inside
    rw [Vector.length_toList] at inside
    simp only [List.take_zero, List.nil_append, List.drop_replicate, Vector.getElem_toList,
      Request.getElem_frame report inside, List.getElem_append, cut, List.getElem_replicate,
      List.getElem_take, List.getD_eq_getElem?_getD]
    split
    · next short => rw [List.getElem?_eq_getElem (by omega), Option.getD_some]
    · next past => rw [List.getElem?_eq_none (by omega), Option.getD_none]

section

variable (f : Vector UInt8 reportSize) {i : Nat}

theorem index_frame (inside : i < reportSize) : index f.toList i = .ok f[i] := by
  rw [index_ok (by rwa [Vector.length_toList]), Vector.getElem_toList]

theorem word_frame (inside : i + 1 < reportSize) :
    word f.toList i = .ok (Word.ofBytes f[i] f[i + 1]) := by
  rw [word, index_frame f (Nat.lt_of_succ_lt inside), ok_bind, add_sizes_ok (Nat.le_of_lt inside), ok_bind,
    index_frame f inside]
  rfl

theorem data_frame {length : Nat} (inside : i + length ≤ reportSize) :
    data f.toList i length = .ok ((f.toList.drop i).take length) := by
  rw [data, add_sizes_ok inside, ok_bind,
    slice_ok (Nat.le_add_right _ _) (by rwa [Vector.length_toList]), List.drop_take,
    Nat.add_sub_cancel_left]

/-- One byte more than a write can carry would be past the end of its report. -/
example : data (.replicate reportSize 0) 5 (Request.maxWrite + 1) = .error .outOfRange := rfl

end

/-! ## Responses -/

/-- An array for a response, and how many of its bytes count. -/
structure Response where
  array : Bytes := .replicate reportSize 0
  length : Nat := 0

namespace Response

def push (r : Response) (b : UInt8) : Checked Response := do
  return { array := ← put r.array r.length b, length := ← add sizes r.length 1 }

def pushWord (r : Response) (w : UInt16) : Checked Response := do
  (← r.push (Word.low w)).push (Word.high w)

/-- Lays bytes over the slice just behind those that count, and counts them too. -/
def extend (r : Response) (bytes : Bytes) : Checked Response := do
  let stop ← add sizes r.length bytes.length
  return { array := ← copy r.array r.length stop bytes, length := stop }

/-- A response that begins with a status. -/
def status (s : Status) : Checked Response :=
  push {} s.code

/-- The bytes that count. -/
def bytes (r : Response) : Checked Bytes :=
  slice r.array 0 r.length

/-- The response with these bytes. -/
def ofBytes (bs : Bytes) : Response where
  array := Reply.padded bs
  length := bs.length

variable {bs : Bytes}

theorem length_padded (short : bs.length ≤ reportSize) : (Reply.padded bs).length = reportSize := by
  rw [Reply.padded, List.length_append, List.length_replicate]
  omega

theorem push_ok (b : UInt8) (room : bs.length < reportSize) :
    (ofBytes bs).push b = .ok (ofBytes (bs ++ [b])) := by
  have zeros : reportSize - bs.length = (reportSize - (bs ++ [b]).length) + 1 := by
    rw [List.length_append, List.length_singleton]
    omega
  have written : (Reply.padded bs).set bs.length b = Reply.padded (bs ++ [b]) := by
    rw [Reply.padded, Reply.padded, List.set_append_right _ _ (Nat.le_refl _), Nat.sub_self, zeros,
      List.replicate_succ, List.set_cons_zero, List.append_assoc, List.singleton_append]
  have next : add sizes bs.length 1 = .ok (bs.length + 1) := add_sizes_ok room
  simp only [push, ofBytes, put_ok b ((length_padded (Nat.le_of_lt room)).symm ▸ room), ok_bind, next,
    written, List.length_append, List.length_singleton, pure_eq_ok]

theorem pushWord_ok (w : UInt16) (room : bs.length + 1 < reportSize) :
    (ofBytes bs).pushWord w = .ok (ofBytes (bs ++ Word.bytes w)) := by
  have room' : (bs ++ [Word.low w]).length < reportSize := by
    rwa [List.length_append, List.length_singleton]
  rw [pushWord, push_ok _ (Nat.lt_of_succ_lt room), ok_bind, push_ok _ room', List.append_assoc]
  rfl

theorem status_ok (s : Status) : status s = .ok (ofBytes [s.code]) :=
  push_ok s.code (show ([] : Bytes).length < reportSize from Nat.succ_pos _)

theorem pushWord_status_ok (s : Status) (w : UInt16) :
    (ofBytes [s.code]).pushWord w = .ok (ofBytes (s.code :: Word.bytes w)) :=
  pushWord_ok w (show 1 + 1 < reportSize by decide)

theorem extend_ok {more : Bytes} (room : bs.length + more.length ≤ reportSize) :
    (ofBytes bs).extend more = .ok (ofBytes (bs ++ more)) := by
  have whole := length_padded (Nat.le_trans (Nat.le_add_right _ _) room)
  have before : (Reply.padded bs).take bs.length = bs := List.take_left
  have after : (Reply.padded bs).drop (bs.length + more.length) =
      .replicate (reportSize - (bs ++ more).length) 0 := by
    rw [Reply.padded, List.drop_append, List.drop_eq_nil_of_le (Nat.le_add_right _ _),
      List.drop_replicate, Nat.add_sub_cancel_left, Nat.sub_sub, List.length_append, List.nil_append]
  have copied : copy (Reply.padded bs) bs.length (bs.length + more.length) more =
      .ok (Reply.padded (bs ++ more)) := by
    rw [copy_ok (whole.symm ▸ room) rfl, before, after]
    rfl
  simp only [extend, ofBytes, add_sizes_ok room, ok_bind, copied, List.length_append, pure_eq_ok]

theorem bytes_ok (short : bs.length ≤ reportSize) : (ofBytes bs).bytes = .ok bs := by
  rw [bytes, slice_ok (Nat.zero_le _) ((length_padded short).symm ▸ short), List.drop_zero]
  exact congrArg _ List.take_left

end Response

/-! ## Cells and blocks -/

section

variable {μ : Type} [Medium μ]

/-- The content of a cell that the medium reports to have. -/
def readCell (m : μ) (a : Nat) : Checked UInt8 :=
  if a < Medium.size m then .ok (Medium.read m a) else .error .outOfRange

def writeCell (m : μ) (a : Nat) (v : UInt8) : Checked μ :=
  if a < Medium.size m then .ok (Medium.write m a v) else .error .outOfRange

def readByte (s : Store μ) (a : Nat) : Checked UInt8 :=
  if s.size ≤ a then .ok erased else readCell s.medium a

def writeByte (s : Store μ) (a : Nat) (v : UInt8) : Checked (Store μ) :=
  if s.size ≤ a then .ok s
  else do
    if (← readCell s.medium a) = v then return s
    return { s with medium := ← writeCell s.medium a v }

/-- The contents of `n` places of a block from place `i` on; a place without an address is erased. -/
def readBlock (s : Store μ) (base : Nat) : Nat → Nat → Checked Bytes
  | _, 0 => .ok []
  | i, n + 1 => do
    let b ←
      match address? base i with
      | some a => readByte s a
      | none => .ok erased
    return b :: (← readBlock s base (i + 1) n)

/-- Writes bytes to a block from place `i` on; a byte for a place without an address is left out. -/
def writeBlock (s : Store μ) (base : Nat) : Nat → Bytes → Checked (Store μ)
  | _, [] => .ok s
  | i, b :: bs => do
    let s ←
      match address? base i with
      | some a => writeByte s a b
      | none => .ok s
    writeBlock s base (i + 1) bs

theorem readByte_ok (s : Store μ) (a : Nat) : readByte s a = .ok (s.readByte a) := by
  rw [readByte, Store.readByte]
  by_cases inside : a < s.size
  · rw [if_neg (Nat.not_le.mpr inside), if_pos inside]
    exact if_pos inside
  · rw [if_pos (Nat.le_of_not_lt inside), if_neg inside]

theorem writeByte_ok (s : Store μ) (a : Nat) (v : UInt8) :
    writeByte s a v = .ok (s.writeByte a v) := by
  rw [writeByte, Store.writeByte]
  by_cases inside : a < s.size
  · have read : readCell s.medium a = .ok (Medium.read s.medium a) := if_pos inside
    have write : writeCell s.medium a v = .ok (Medium.write s.medium a v) := if_pos inside
    rw [if_neg (Nat.not_le.mpr inside), read, ok_bind, write, ok_bind]
    by_cases same : Medium.read s.medium a = v
    · rw [if_pos same, if_neg (fun other => other.2 same)]
      rfl
    · rw [if_neg same, if_pos ⟨inside, same⟩]
      rfl
  · rw [if_pos (Nat.le_of_not_lt inside), if_neg (fun there => inside there.1)]

/-- A place without an address has no cell either. -/
theorem size_le_of_words_le (s : Store μ) {a : Nat} (beyond : words ≤ a) : s.size ≤ a :=
  Nat.le_trans s.size_le (Nat.le_trans (by decide) beyond)

theorem readBlock_ok (s : Store μ) (base i n : Nat) :
    readBlock s base i n = .ok (s.readBlock (base + i) n) := by
  induction n generalizing i with
  | zero => rfl
  | succ n ih =>
    have first : readBlock s base i (n + 1) =
        .ok (s.readByte (base + i) :: s.readBlock (base + (i + 1)) n) := by
      rw [readBlock, ih]
      by_cases word : base + i < words
      · simp only [address?_some word, readByte_ok, ok_bind, pure_eq_ok]
      · have beyond := Nat.le_of_not_lt word
        simp only [address?_none beyond, Store.readByte_of_beyond (size_le_of_words_le s beyond), ok_bind,
          pure_eq_ok]
    rw [first]
    simp only [Store.readBlock, List.range_succ_eq_map, List.map_cons, List.map_map, Nat.add_zero,
      Function.comp_def, Nat.succ_eq_add_one, Nat.add_assoc, Nat.add_comm 1]

theorem writeBlock_ok (s : Store μ) (base i : Nat) (bs : Bytes) :
    writeBlock s base i bs = .ok (s.writeBlock (base + i) bs) := by
  induction bs generalizing s i with
  | nil => rfl
  | cons b bs ih =>
    rw [writeBlock, Store.writeBlock]
    by_cases word : base + i < words
    · simp only [address?_some word, writeByte_ok, ok_bind]
      exact ih _ (i + 1)
    · have beyond := Nat.le_of_not_lt word
      simp only [address?_none beyond, Store.writeByte_of_beyond b (size_le_of_words_le s beyond), ok_bind]
      exact ih _ (i + 1)

/-! ## The header and the script -/

def putWord (array : Bytes) (i : Nat) (w : UInt16) : Checked Bytes := do
  copy array i (← add sizes i 2) (Word.bytes w)

def encode (h : Header) : Checked Bytes := do
  let raw ← put (.replicate headerSize 0) Header.versionOffset h.version
  let raw ← put raw Header.flagsOffset h.flags
  let raw ← putWord raw Header.delayOffset h.delay
  let raw ← putWord raw Header.lengthOffset h.length
  putWord raw Header.checksumOffset h.checksum

def commit (s : Store μ) (h : Header) : Checked (Store μ) := do
  let written ← writeBlock s 0 0 (← encode h)
  return { written with header := h }

def invalidate (s : Store μ) : Checked (Store μ) := do
  let cleared ← writeBlock s Header.lengthOffset 0 (Word.bytes 0)
  return { cleared with header := { s.header with length := 0 } }

def scriptChecksum (s : Store μ) (length : Nat) : Checked UInt16 := do
  return Checksum.ofBytes (← readBlock s scriptStart 0 length)

theorem encode_ok (h : Header) : encode h = .ok h.encode.toList :=
  rfl

theorem commit_ok (s : Store μ) (h : Header) : commit s h = .ok (s.commit h) := by
  rw [commit, encode_ok, ok_bind, writeBlock_ok]
  rfl

theorem invalidate_ok (s : Store μ) : invalidate s = .ok s.invalidate := by
  rw [invalidate, writeBlock_ok]
  rfl

theorem scriptChecksum_ok (s : Store μ) (length : Nat) :
    scriptChecksum s length = .ok (s.scriptChecksum length) := by
  rw [scriptChecksum, readBlock_ok]
  rfl

end

end Checked

end Autotype
