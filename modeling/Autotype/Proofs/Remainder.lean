import Autotype.Checksum
import Mathlib.Algebra.CharP.Two
import Mathlib.Algebra.Field.ZMod
import Mathlib.RingTheory.AdjoinRoot
import Mathlib.Tactic.ComputeDegree
import Mathlib.Tactic.LinearCombination

/-!
# The checksum as a remainder

A string of bits, the most significant one first, is a polynomial over the field of two elements
(`Checksum.poly`), and so are a byte, a string of bytes and the register. Adding bits without carry adds
polynomials, and moving the register up by one bit is multiplication by `X` modulo the divisor
(`Checksum.residue_shift`). So the register is at any time the remainder of all it has taken in, together with
what it held at first (`Checksum.residue_feedAll`).
-/

namespace Autotype.Checksum

open Polynomial

/-! ## Bits -/

/-- The bits of a word, the most significant one first. -/
def wordBits {w : Nat} (v : BitVec w) : List Bool :=
  (List.range w).map v.getMsbD

/-- The bits of a string of bytes, the first byte first. -/
def bits (bytes : Bytes) : List Bool :=
  bytes.flatMap fun b => wordBits b.toBitVec

def registerBits (register : UInt16) : List Bool :=
  wordBits register.toBitVec

@[simp] theorem length_wordBits {w : Nat} (v : BitVec w) : (wordBits v).length = w := by
  simp [wordBits]

theorem bits_cons (b : UInt8) (bytes : Bytes) : bits (b :: bytes) = wordBits b.toBitVec ++ bits bytes :=
  rfl

@[simp] theorem length_bits (bytes : Bytes) : (bits bytes).length = 8 * bytes.length := by
  induction bytes with
  | nil => rfl
  | cons b bytes ih =>
    rw [bits_cons, List.length_append, length_wordBits, ih, List.length_cons]
    omega

theorem wordBits_xor {w : Nat} (u v : BitVec w) :
    wordBits (u ^^^ v) = List.zipWith xor (wordBits u) (wordBits v) := by
  refine List.ext_getElem (by simp) fun i _ _ => ?_
  simp only [wordBits, List.getElem_map, List.getElem_range, List.getElem_zipWith, BitVec.getMsbD_xor]

theorem wordBits_succ {w : Nat} (v : BitVec (w + 1)) :
    wordBits v = v.msb :: (List.range w).map fun i => v.getMsbD (i + 1) := by
  rw [wordBits, List.range_succ_eq_map, List.map_cons, List.map_map]
  rfl

theorem wordBits_shiftLeft_one {w : Nat} (v : BitVec (w + 1)) :
    wordBits (v <<< 1) = (List.range w).map (fun i => v.getMsbD (i + 1)) ++ [false] := by
  rw [wordBits, List.range_succ, List.map_append]
  simp [BitVec.getMsbD_shiftLeft]

/-- A byte that is added at the top of the register has eight zero bits behind it. -/
theorem registerBits_byte (b : UInt8) :
    registerBits (b.toUInt16 <<< 8) = wordBits b.toBitVec ++ List.replicate 8 false := by
  have moved : (b.toUInt16 <<< 8).toBitVec = b.toBitVec.setWidth 16 <<< 8 := by
    rw [UInt16.toBitVec_shiftLeft, UInt8.toBitVec_toUInt16]
    rfl
  refine List.ext_getElem (by simp [registerBits]) fun i inside _ => ?_
  have below : i < 16 := by simpa [registerBits] using inside
  simp only [registerBits, moved, wordBits, List.getElem_map, List.getElem_range, BitVec.getMsbD_shiftLeft,
    BitVec.getMsbD_setWidth, List.getElem_append, List.length_map, List.length_range, List.getElem_replicate]
  split
  case isTrue => simp
  case isFalse past => simpa using BitVec.getMsbD_of_ge b.toBitVec i (Nat.le_of_not_lt past)

/-! ## Polynomials -/

/-- The polynomial over the field of two elements whose coefficients are some bits, that of the highest power
first. -/
noncomputable def poly : List Bool → (ZMod 2)[X]
  | [] => 0
  | b :: bs => (if b then X ^ bs.length else 0) + poly bs

/-- The divisor, with its leading term. -/
noncomputable def generator : (ZMod 2)[X] :=
  X ^ 16 + X ^ 12 + X ^ 5 + 1

theorem monic_generator : generator.Monic := by
  rw [generator]
  monicity!

theorem degree_generator : generator.degree = 16 := by
  rw [generator]
  compute_degree!

theorem poly_append (as bs : List Bool) : poly (as ++ bs) = poly as * X ^ bs.length + poly bs := by
  induction as with
  | nil => simp [poly]
  | cons a as ih =>
    rw [List.cons_append, poly, ih, poly, List.length_append]
    split <;> ring

theorem poly_replicate_false (n : Nat) : poly (List.replicate n false) = 0 := by
  induction n with
  | zero => rfl
  | succ n ih => simp [List.replicate_succ, poly, ih]

/-- Addition without carry is addition of polynomials. -/
theorem poly_xor {as bs : List Bool} (same : as.length = bs.length) :
    poly (List.zipWith xor as bs) = poly as + poly bs := by
  induction as generalizing bs with
  | nil => simp [poly, List.length_eq_zero_iff.mp same.symm]
  | cons a as ih =>
    cases bs with
    | nil => cases same
    | cons b bs =>
      have rest : as.length = bs.length := Nat.succ.inj same
      have length : (List.zipWith xor as bs).length = bs.length := by simp [rest]
      have first : (if (a ^^ b) then X ^ bs.length else 0 : (ZMod 2)[X]) =
          (if a then X ^ bs.length else 0) + if b then X ^ bs.length else 0 := by
        cases a <;> cases b <;> simp [CharTwo.add_self_eq_zero]
      rw [List.zipWith_cons_cons, poly, poly, poly, ih rest, length, rest, first]
      ring

theorem degree_poly_lt (bs : List Bool) : (poly bs).degree < bs.length := by
  induction bs with
  | nil => simp [poly]
  | cons b bs ih =>
    have more : (bs.length : WithBot ℕ) < (b :: bs).length := by
      rw [List.length_cons, Nat.cast_lt]
      exact Nat.lt_succ_self _
    have first : (if b then X ^ bs.length else 0 : (ZMod 2)[X]).degree < (b :: bs).length := by
      cases b with
      | true => simpa using more
      | false => simp
    exact (degree_add_le _ _).trans_lt (max_lt first (ih.trans more))

/-- Bits other than zeros are a polynomial other than zero. -/
theorem poly_eq_zero_iff (bs : List Bool) : poly bs = 0 ↔ true ∉ bs := by
  induction bs with
  | nil => simp [poly]
  | cons b bs ih =>
    cases b with
    | false => simp [poly, ih]
    | true =>
      have leading : (poly (true :: bs)).degree = bs.length := by
        have below : (poly bs).degree < (X ^ bs.length : (ZMod 2)[X]).degree := by
          rw [degree_X_pow]
          exact degree_poly_lt bs
        rw [poly, if_pos rfl, degree_add_eq_left_of_degree_lt below, degree_X_pow]
      have nonzero : poly (true :: bs) ≠ 0 := by
        intro zero
        rw [zero, degree_zero] at leading
        cases leading
      simp [nonzero]

/-! ## The register -/

/-- A polynomial up to multiples of the divisor. -/
noncomputable abbrev residue : (ZMod 2)[X] →+* AdjoinRoot generator :=
  AdjoinRoot.mk generator

theorem registerBits_divisor : poly (registerBits divisor) = X ^ 12 + X ^ 5 + 1 := by
  have bits : registerBits divisor = [false, false, false, true, false, false, false, false, false, false,
    true, false, false, false, false, true] := by decide
  simp [bits, poly]
  ring

theorem registerBits_xor (r r' : UInt16) :
    poly (registerBits (r ^^^ r')) = poly (registerBits r) + poly (registerBits r') := by
  rw [registerBits, UInt16.toBitVec_xor, wordBits_xor, poly_xor (by simp)]
  rfl

/-- The register is known from its polynomial. -/
theorem poly_registerBits_inj {r r' : UInt16} : poly (registerBits r) = poly (registerBits r') ↔ r = r' := by
  rw [← CharTwo.add_eq_zero, ← registerBits_xor, poly_eq_zero_iff, ← UInt16.xor_eq_zero_iff]
  constructor
  · intro none
    refine UInt16.toBitVec_inj.mp (BitVec.eq_of_getMsbD_eq fun i inside => ?_)
    have bit : (r ^^^ r').toBitVec.getMsbD i ∈ registerBits (r ^^^ r') :=
      List.mem_map_of_mem (List.mem_range.mpr inside)
    cases value : (r ^^^ r').toBitVec.getMsbD i with
    | false => simp
    | true => exact absurd (value ▸ bit) none
  · rintro zero
    rw [zero]
    decide

/-- Moving the register up by one bit is multiplication by `X`, as far as the remainder goes. -/
theorem residue_shift (r : UInt16) :
    residue (poly (registerBits (shift r))) = residue (poly (registerBits r)) * residue X := by
  obtain ⟨rest, length, here, moved⟩ : ∃ rest : List Bool, rest.length = 15 ∧
      registerBits r = r.toBitVec.msb :: rest ∧ registerBits (r <<< 1) = rest ++ [false] := by
    refine ⟨_, by simp, wordBits_succ r.toBitVec, ?_⟩
    rw [← wordBits_shiftLeft_one]
    rfl
  have before : poly (registerBits r) = (if r.toBitVec.msb then X ^ 15 else 0) + poly rest := by
    rw [here, poly, length]
  have after : poly (registerBits (r <<< 1)) = poly rest * X := by
    rw [moved, poly_append]
    simp [poly]
  rw [← map_mul, AdjoinRoot.mk_eq_mk, before]
  by_cases leaves : r.toBitVec.msb = true
  · -- the bit that leaves at the top is made up for by the divisor
    have two : (2 : (ZMod 2)[X]) = 0 := CharTwo.two_eq_zero
    rw [shift, if_pos leaves, if_pos leaves, registerBits_xor, after, registerBits_divisor]
    exact ⟨1, by rw [generator]; linear_combination -X ^ 16 * two⟩
  · rw [shift, if_neg leaves, if_neg leaves, after]
    exact ⟨0, by ring⟩

theorem residue_repeat_shift (n : Nat) (r : UInt16) :
    residue (poly (registerBits (Nat.repeat shift n r))) =
      residue (poly (registerBits r)) * residue X ^ n := by
  induction n with
  | zero => rw [Nat.repeat, pow_zero, mul_one]
  | succ n ih => rw [Nat.repeat, residue_shift, ih, pow_succ, mul_assoc]

theorem residue_feed (r : UInt16) (b : UInt8) :
    residue (poly (registerBits (feed r b))) =
      residue (poly (registerBits r)) * residue X ^ 8 + residue (poly (wordBits b.toBitVec)) * residue X ^ 16 := by
  have byte : poly (registerBits (b.toUInt16 <<< 8)) = poly (wordBits b.toBitVec) * X ^ 8 := by
    rw [registerBits_byte, poly_append, poly_replicate_false, add_zero, List.length_replicate]
  rw [feed, residue_repeat_shift, registerBits_xor, byte, map_add, map_mul, map_pow]
  ring

/-- Up to multiples of the divisor, the register is what it was at first, moved up by all bits that came, and
these bits, moved up by its own length. -/
theorem residue_feedAll (r : UInt16) (bytes : Bytes) :
    residue (poly (registerBits (feedAll r bytes))) =
      residue (poly (registerBits r) * X ^ (8 * bytes.length) + poly (bits bytes) * X ^ 16) := by
  induction bytes generalizing r with
  | nil => simp [bits, poly]
  | cons b bytes ih =>
    have length : 8 * (b :: bytes).length = 8 + 8 * bytes.length := by
      rw [List.length_cons]
      omega
    rw [feedAll_cons, ih, bits_cons, poly_append, length_bits, length]
    simp only [map_add, map_mul, map_pow, residue_feed]
    ring

/-- A polynomial of a degree below that of the divisor is the remainder of all that differ from it by a
multiple. -/
theorem eq_modByMonic {r : UInt16} {p : (ZMod 2)[X]} (same : residue (poly (registerBits r)) = residue p) :
    poly (registerBits r) = p %ₘ generator := by
  have small : (poly (registerBits r)).degree < generator.degree := by
    have below := degree_poly_lt (registerBits r)
    rwa [registerBits, length_wordBits, Nat.cast_ofNat, ← degree_generator] at below
  rw [← (modByMonic_eq_self_iff monic_generator).mpr small]
  exact modByMonic_eq_of_dvd_sub monic_generator (AdjoinRoot.mk_eq_mk.mp same)

/-! ## The checksum -/

/-- CRC-16/CCITT-FALSE of a string of bytes, by long division: sixteen zero bits are put behind it, the first
sixteen bits of the whole are inverted, and the remainder of the division is the checksum. -/
noncomputable def ccittFalse (bytes : Bytes) : (ZMod 2)[X] :=
  let padded := bits bytes ++ List.replicate 16 false
  poly ((padded.take 16).map (!·) ++ padded.drop 16) %ₘ generator

theorem registerBits_initial : registerBits initial = List.replicate 16 true := by
  decide

/-- To invert the bits at the front is to add ones there. -/
theorem poly_inverted {n : Nat} {bs : List Bool} (long : n ≤ bs.length) :
    poly ((bs.take n).map (!·) ++ bs.drop n) =
      poly (List.replicate n true) * X ^ (bs.length - n) + poly bs := by
  have front : (bs.take n).length = n := List.length_take_of_le long
  have inverted : (bs.take n).map (!·) = List.zipWith xor (List.replicate n true) (bs.take n) := by
    refine List.ext_getElem (by simp) fun i _ _ => ?_
    simp
  have whole : poly bs = poly (bs.take n) * X ^ (bs.length - n) + poly (bs.drop n) := by
    rw [← List.length_drop, ← poly_append, List.take_append_drop]
  rw [poly_append, inverted, poly_xor (by simp [front]), whole, List.length_drop]
  ring

/-- The register is, at any time, the remainder of what it held at first and of the bytes that came, each moved
up to its place: no other register value has this polynomial. From a register with all bits set it gives
CRC-16/CCITT-FALSE, and a string that comes in two pieces is taken in from where the first piece left off. -/
theorem remainder_of_bytes :
    (∀ (r r' : UInt16) (bytes : Bytes), poly (registerBits r') =
      (poly (registerBits r) * X ^ (8 * bytes.length) + poly (bits bytes) * X ^ 16) %ₘ generator ↔
        r' = feedAll r bytes) ∧
    (∀ (r : UInt16) (bytes : Bytes), poly (registerBits r) = ccittFalse bytes ↔ r = ofBytes bytes) ∧
    ∀ a b : Bytes, ofBytes (a ++ b) = feedAll (ofBytes a) b := by
  have remainder : ∀ (r : UInt16) (bytes : Bytes), poly (registerBits (feedAll r bytes)) =
      (poly (registerBits r) * X ^ (8 * bytes.length) + poly (bits bytes) * X ^ 16) %ₘ generator :=
    fun r bytes => eq_modByMonic (residue_feedAll r bytes)
  refine ⟨fun r r' bytes => ?_, fun r bytes => ?_, fun a b => feedAll_append initial a b⟩
  · rw [← remainder, poly_registerBits_inj]
  · have padded : (bits bytes ++ List.replicate 16 false).length = 8 * bytes.length + 16 := by simp
    have long : 16 ≤ (bits bytes ++ List.replicate 16 false).length := padded ▸ Nat.le_add_left _ _
    have value : ccittFalse bytes = poly (registerBits (ofBytes bytes)) := by
      rw [ccittFalse, poly_inverted long, padded, Nat.add_sub_cancel, poly_append, poly_replicate_false,
        add_zero, List.length_replicate, ofBytes, remainder, registerBits_initial]
    rw [value, poly_registerBits_inj]

example : ofBytes [0x31, 0x32, 0x33, 0x34, 0x35, 0x36, 0x37, 0x38, 0x39] = 0x29B1 := by decide +kernel

end Autotype.Checksum
