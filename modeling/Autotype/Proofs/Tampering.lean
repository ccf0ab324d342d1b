import Autotype.Proofs.Committed
import Autotype.Proofs.Remainder
import Mathlib.Data.List.Iterate
import Mathlib.RingTheory.Coprime.Lemmas

/-!
# Tampering

Two scripts of one length have the same checksum only if the divisor divides the polynomial of the bits they
differ in (`Checksum.generator_dvd_of_collision`). It divides none with an odd number of terms, as `1` is a root
of it, no multiple of a power of `X` by a polynomial of a smaller degree than its own, as its constant term is
not zero, and no `X ^ d + 1` for a `d` below the number of bits of the script region, as the register that moves
up from one comes back to one only later. So a script that was changed in few bits, in an odd number of bits or
in one short burst is not verified (`Store.verify_tampered`).
-/

namespace Autotype

namespace Checksum

open Polynomial

/-- The bits in which two strings of bytes differ, the most significant one first. -/
def differences (a b : Bytes) : List Bool :=
  List.zipWith xor (bits a) (bits b)

/-- Whether some of the bits are set, and so that the checksum is sure to tell. -/
inductive Detectable (flips : List Bool) : Prop where
  /-- One, two or three bits are set, wherever they are. -/
  | few (some : 0 < flips.count true) (atMost : flips.count true ≤ 3)
  /-- An odd number of bits is set. -/
  | odd (odd : Odd (flips.count true))
  /-- All bits that are set are among sixteen in a row. -/
  | burst (start : Nat) (some : true ∈ flips)
      (within : ∀ i, flips[i]? = true → start ≤ i ∧ i < start + 16)

/-! ## Multiples of the divisor -/

theorem isCoprime_generator_X : IsCoprime generator (X : (ZMod 2)[X]) := by
  have two : (2 : (ZMod 2)[X]) = 0 := CharTwo.two_eq_zero
  refine ⟨1, X ^ 15 + X ^ 11 + X ^ 4, ?_⟩
  rw [generator]
  linear_combination (X ^ 16 + X ^ 12 + X ^ 5) * two

/-- A power of `X` does not make a multiple of the divisor. -/
theorem generator_dvd_of_dvd_mul {p : (ZMod 2)[X]} {n : Nat} (dvd : generator ∣ p * X ^ n) : generator ∣ p :=
  isCoprime_generator_X.pow_right.dvd_of_dvd_mul_right dvd

/-- The checksum tells two strings of one length apart unless the divisor divides their difference. -/
theorem generator_dvd_of_collision {a b : Bytes} (same : a.length = b.length) (collision : ofBytes a = ofBytes b) :
    generator ∣ poly (differences a b) := by
  have registers : residue (poly (registerBits initial) * X ^ (8 * b.length) + poly (bits a) * X ^ 16) =
      residue (poly (registerBits initial) * X ^ (8 * b.length) + poly (bits b) * X ^ 16) := by
    rw [← residue_feedAll, ← same, ← residue_feedAll]
    exact congrArg (fun r => residue (poly (registerBits r))) collision
  have moved : generator ∣ poly (differences a b) * X ^ 16 := by
    rw [AdjoinRoot.mk_eq_mk, add_sub_add_left_eq_sub, ← sub_mul, CharTwo.sub_eq_add] at registers
    rwa [differences, poly_xor (by simp [same])]
  exact generator_dvd_of_dvd_mul moved

/-! ## An odd number of bits -/

theorem eval_poly (bs : List Bool) : (poly bs).eval 1 = bs.count true := by
  induction bs with
  | nil => simp [poly]
  | cons b bs ih => cases b <;> simp [poly, ih, add_comm]

theorem eval_generator : generator.eval 1 = 0 := by
  rw [generator]
  simp
  decide

/-- A multiple of the divisor has an even number of terms. -/
theorem even_of_generator_dvd {bs : List Bool} (dvd : generator ∣ poly bs) : Even (bs.count true) := by
  have root := eval_eq_zero_of_dvd_of_eval_eq_zero dvd eval_generator
  rwa [eval_poly, ZMod.natCast_eq_zero_iff_even] at root

/-! ## Two bits -/

theorem poly_of_count_one {bs : List Bool} (one : bs.count true = 1) : ∃ i < bs.length, poly bs = X ^ i := by
  induction bs with
  | nil => cases one
  | cons b bs ih =>
    cases b with
    | false =>
      obtain ⟨i, inside, here⟩ := ih (by simpa using one)
      exact ⟨i, inside.trans (Nat.lt_succ_self _), by simpa [poly] using here⟩
    | true =>
      have rest : poly bs = 0 := (poly_eq_zero_iff bs).mpr (List.count_eq_zero.mp (by simpa using one))
      exact ⟨bs.length, Nat.lt_succ_self _, by simp [poly, rest]⟩

/-- Two bits are two powers of `X` that are less than the whole length apart. -/
theorem poly_of_count_two {bs : List Bool} (two : bs.count true = 2) :
    ∃ i d, 0 < d ∧ d < bs.length ∧ poly bs = (X ^ d + 1) * X ^ i := by
  induction bs with
  | nil => cases two
  | cons b bs ih =>
    cases b with
    | false =>
      obtain ⟨i, d, positive, inside, here⟩ := ih (by simpa using two)
      exact ⟨i, d, positive, inside.trans (Nat.lt_succ_self _), by simpa [poly] using here⟩
    | true =>
      have one : bs.count true = 1 := by simpa using two
      obtain ⟨i, inside, rest⟩ := poly_of_count_one one
      refine ⟨i, bs.length - i, Nat.sub_pos_of_lt inside, by rw [List.length_cons]; omega, ?_⟩
      rw [poly, if_pos rfl, rest, add_mul, ← pow_add, Nat.sub_add_cancel inside.le, one_mul]

theorem repeat_eq_iterate {α : Type} (f : α → α) (n : Nat) (a : α) : Nat.repeat f n a = f^[n] a := by
  induction n with
  | zero => rfl
  | succ n ih => rw [Nat.repeat, ih, Function.iterate_succ_apply']

/-- A register that holds one and moves up does not hold one again before it has moved up by more bits than
there are in the script region. -/
theorem repeat_shift_ne_one {d : Nat} (positive : 0 < d) (inside : d < 8 * maxScript) :
    Nat.repeat shift d 1 ≠ 1 := by
  -- it does after 32767 bits; the values before the end of the region are gone through one by one
  have values : 1 ∉ List.iterate shift (shift 1) (8 * maxScript - 1) := by decide +kernel
  intro back
  obtain ⟨before, rfl⟩ := Nat.exists_eq_succ_of_ne_zero positive.ne'
  refine values (List.mem_iterate.mpr ⟨before, by omega, ?_⟩)
  rw [← Function.iterate_succ_apply, ← repeat_eq_iterate, back]

/-- Where the divisor divides `X ^ d + 1`, a register that holds one holds it again after `d` bits. -/
theorem repeat_shift_of_generator_dvd {d : Nat} (dvd : generator ∣ X ^ d + 1) : Nat.repeat shift d 1 = 1 := by
  have one : poly (registerBits 1) = 1 := by
    have bits : registerBits 1 = List.replicate 15 false ++ [true] := by decide
    rw [bits, poly_append, poly_replicate_false]
    simp [poly]
  have power : residue (X ^ d) = residue 1 := by
    rw [AdjoinRoot.mk_eq_mk, CharTwo.sub_eq_add]
    exact dvd
  have moved : residue (poly (registerBits (Nat.repeat shift d 1))) = residue (poly (registerBits 1)) := by
    rw [residue_repeat_shift, one, ← map_pow, ← map_mul, one_mul, power]
  rw [← poly_registerBits_inj, eq_modByMonic moved, ← eq_modByMonic rfl]

/-! ## A burst -/

/-- What lies within some bits in a row is a polynomial of a degree below their number, moved up. -/
theorem poly_burst {bs : List Bool} {start : Nat} (within : ∀ i, bs[i]? = true → start ≤ i ∧ i < start + 16) :
    ∃ n, poly bs = poly ((bs.drop start).take 16) * X ^ n := by
  have before : poly (bs.take start) = 0 := by
    refine (poly_eq_zero_iff _).mpr fun set => ?_
    obtain ⟨i, value⟩ := List.mem_iff_getElem?.mp set
    rw [List.getElem?_take] at value
    split at value
    case isTrue outside => exact absurd (within i value).1 (Nat.not_le.mpr outside)
    case isFalse => cases value
  have after : poly ((bs.drop start).drop 16) = 0 := by
    refine (poly_eq_zero_iff _).mpr fun set => ?_
    obtain ⟨i, value⟩ := List.mem_iff_getElem?.mp set
    rw [List.drop_drop, List.getElem?_drop] at value
    have early := (within _ value).2
    omega
  have pieces : bs = bs.take start ++ ((bs.drop start).take 16 ++ (bs.drop start).drop 16) := by
    rw [List.take_append_drop, List.take_append_drop]
  refine ⟨((bs.drop start).drop 16).length, ?_⟩
  conv_lhs => rw [pieces]
  rw [poly_append, poly_append, before, after, zero_mul, zero_add, add_zero]

/-- Some bits that are set within sixteen in a row are not a multiple of the divisor. -/
theorem not_generator_dvd_of_burst {bs : List Bool} {start : Nat} (some : true ∈ bs)
    (within : ∀ i, bs[i]? = true → start ≤ i ∧ i < start + 16) : ¬ generator ∣ poly bs := by
  intro dvd
  obtain ⟨n, moved⟩ := poly_burst within
  have short : (poly ((bs.drop start).take 16)).degree < generator.degree := by
    refine (degree_poly_lt _).trans_le ?_
    rw [degree_generator]
    exact_mod_cast List.length_take_le 16 _
  refine monic_generator.not_dvd_of_degree_lt ?_ short (generator_dvd_of_dvd_mul (moved ▸ dvd))
  intro nothing
  rw [nothing, zero_mul, poly_eq_zero_iff] at moved
  exact moved some

/-- What the checksum is sure to tell is not a multiple of the divisor. -/
theorem not_generator_dvd_of_detectable {bs : List Bool} (short : bs.length ≤ 8 * maxScript)
    (detectable : Detectable bs) : ¬ generator ∣ poly bs := by
  intro dvd
  obtain ⟨half, even⟩ := even_of_generator_dvd dvd
  cases detectable with
  | few some atMost =>
    -- one bit and three are an odd number
    have two : bs.count true = 2 := by omega
    obtain ⟨i, d, positive, inside, here⟩ := poly_of_count_two two
    rw [here] at dvd
    exact repeat_shift_ne_one positive (inside.trans_le short)
      (repeat_shift_of_generator_dvd (generator_dvd_of_dvd_mul dvd))
  | odd odd => exact Nat.not_odd_iff_even.mpr ⟨half, even⟩ odd
  | burst start some within => exact not_generator_dvd_of_burst some within dvd

end Checksum

/-- A script that stands in the store as it was is verified under its checksum. One whose bits differ from it,
but only in one, two or three of them, in an odd number of them or within sixteen in a row, is not. -/
theorem Store.verify_tampered {μ : Type} [Medium μ] (t : Store μ) {script : Bytes} (positive : 0 < script.length)
    (fits : script.length ≤ maxScript) :
    (t.script script.length = script → t.verify script.length (Checksum.ofBytes script) = true) ∧
    (Checksum.Detectable (Checksum.differences script (t.script script.length)) →
      t.verify script.length (Checksum.ofBytes script) = false) := by
  have inside : (decide (0 < script.length) && decide (script.length ≤ maxScript)) = true := by
    simp [positive, fits]
  rw [Store.verify, inside, Bool.true_and, Store.scriptChecksum]
  constructor
  · intro unchanged
    rw [unchanged, beq_self_eq_true]
  · intro detectable
    have length : (t.script script.length).length = script.length := by
      rw [Store.script, List.length_map, List.length_range]
    have short : (Checksum.differences script (t.script script.length)).length ≤ 8 * maxScript := by
      simp only [Checksum.differences, List.length_zipWith, Checksum.length_bits, length]
      omega
    rw [beq_eq_false_iff_ne]
    intro collision
    exact Checksum.not_generator_dvd_of_detectable short detectable
      (Checksum.generator_dvd_of_collision length.symm collision.symm)

/-- A script that types a text of five characters. -/
def typesHello : Bytes :=
  [0x08, 0x05, 0x68, 0x65, 0x6C, 0x6C, 0x6F, 0x00]

/-- The store that holds it, with one bit flipped in the second character and one in the last. -/
def Store.flippedHello : Store Memory :=
  ((Store.ofScript typesHello).writeByte (scriptStart + 3) 0x64).writeByte (scriptStart + 6) 0x6E

theorem Store.verify_tampered_flippedHello :
    (0 < typesHello.length ∧ typesHello.length ≤ maxScript) ∧
    (Store.ofScript typesHello).script typesHello.length = typesHello ∧
    (Store.ofScript typesHello).verify typesHello.length (Checksum.ofBytes typesHello) = true ∧
    Checksum.Detectable (Checksum.differences typesHello (Store.flippedHello.script typesHello.length)) ∧
    Store.flippedHello.verify typesHello.length (Checksum.ofBytes typesHello) = false := by
  have positive : 0 < typesHello.length := by decide
  have fits : typesHello.length ≤ maxScript := by decide
  have unchanged : (Store.ofScript typesHello).script typesHello.length = typesHello := by decide +kernel
  have detectable : Checksum.Detectable
      (Checksum.differences typesHello (Store.flippedHello.script typesHello.length)) :=
    .few (by decide +kernel) (by decide +kernel)
  exact ⟨⟨positive, fits⟩, unchanged,
    (Store.verify_tampered (Store.ofScript typesHello) positive fits).1 unchanged, detectable,
    (Store.verify_tampered Store.flippedHello positive fits).2 detectable⟩

end Autotype
