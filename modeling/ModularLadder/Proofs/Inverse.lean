import Mathlib
import ModularLadder.Word.Inverse

/-!
# Inverses modulo the word size are exact

Words form a commutative ring, in which a divisor `2^k` of `odd * guess - 1`
says that the guess is correct in its `k` lowest bits.  A step squares that
difference up to the sign, which doubles `k`.  Read as numbers, the guess is
correct modulo `2^k`, or modulo `2^64` once `k` has passed the size of a word.
-/

namespace ModularLadder.Word

open scoped UInt64.CommRing

/--
An odd word is its own inverse in the three lowest bits, because one of two
neighbouring numbers is even.
-/
theorem eight_dvd_sq_sub_one
    (odd : Word)
    (isOdd : odd.toNat % 2 = 1) :
    (2 : Word) ^ 3 ∣ odd * odd - 1 := by
  have half : odd = 2 * UInt64.ofNat (odd.toNat / 2) + 1 := by
    have bound := odd.toNat_lt
    apply UInt64.toNat_inj.1
    rw [UInt64.toNat_add, UInt64.toNat_mul, UInt64.toNat_ofNat']
    show odd.toNat = (2 * (odd.toNat / 2 % 2 ^ 64) % 2 ^ 64 + 1) % 2 ^ 64
    omega
  rcases Nat.even_mul_succ_self (odd.toNat / 2) with ⟨quarter, even⟩
  have evenWord :
      UInt64.ofNat (odd.toNat / 2) * (UInt64.ofNat (odd.toNat / 2) + 1) =
        2 * UInt64.ofNat quarter := by
    have cast := congrArg UInt64.ofNat even
    rw [← Nat.two_mul, UInt64.ofNat_mul, UInt64.ofNat_mul, UInt64.ofNat_add]
      at cast
    exact cast
  refine ⟨UInt64.ofNat quarter, ?_⟩
  generalize UInt64.ofNat (odd.toNat / 2) = k at half evenWord
  rw [half]
  linear_combination 4 * evenWord

/-- A step doubles the number of correct bits. -/
theorem dvd_inverseStep
    (odd guess : Word)
    (bits : Nat)
    (correct : (2 : Word) ^ bits ∣ odd * guess - 1) :
    (2 : Word) ^ (2 * bits) ∣ odd * inverseStep odd guess - 1 := by
  rcases correct with ⟨factor, difference⟩
  refine ⟨-(factor * factor), ?_⟩
  have product : odd * guess = 1 + 2 ^ bits * factor := by
    linear_combination difference
  calc
    odd * inverseStep odd guess - 1 =
        odd * guess * (2 - odd * guess) - 1 := by
      rw [inverseStep]
      ring
    _ = 2 ^ (2 * bits) * -(factor * factor) := by
      rw [product, pow_mul']
      ring

/-- After each number of steps `3 * 2^steps` bits are correct. -/
theorem dvd_inverseAfter
    (odd : Word)
    (isOdd : odd.toNat % 2 = 1)
    (steps : Nat) :
    (2 : Word) ^ (3 * 2 ^ steps) ∣ odd * inverseAfter odd steps - 1 := by
  induction steps with
  | zero => exact eight_dvd_sq_sub_one odd isOdd
  | succ steps ih =>
    have doubled := dvd_inverseStep odd (inverseAfter odd steps) _ ih
    rw [pow_succ', ← Nat.mul_assoc, Nat.mul_comm 3 2, Nat.mul_assoc]
    exact doubled

/-- Five steps give the inverse modulo the word size. -/
theorem mul_inverse
    (odd : Word)
    (isOdd : odd.toNat % 2 = 1) :
    odd * inverse odd = 1 := by
  rcases dvd_inverseAfter odd isOdd 5 with ⟨factor, difference⟩
  have vanished : (2 : Word) ^ (3 * 2 ^ 5) = 0 := by
    have half : (2 : Word) ^ 32 * 2 ^ 32 = 0 := by
      rw [show (2 : Word) ^ 32 = 0x100000000 from by decide]
      rfl
    rw [show 3 * 2 ^ 5 = 32 + 32 + 32 from rfl, pow_add, pow_add, half,
      zero_mul]
  rw [vanished, zero_mul] at difference
  exact sub_eq_zero.1 difference

/-- The negated inverse takes an odd word to minus one. -/
theorem mul_negInverse
    (odd : Word)
    (isOdd : odd.toNat % 2 = 1) :
    odd * negInverse odd = -1 := by
  have negated : negInverse odd = -inverse odd := by
    rw [negInverse, UInt64.neg_eq_not_add]
  rw [negated, mul_neg, mul_inverse odd isOdd]

/--
A word, its multiple by the negated inverse of an odd word and that odd word
cancel modulo the word size.
-/
theorem dvd_add_mul_negInverse
    (odd word : Word)
    (isOdd : odd.toNat % 2 = 1) :
    2 ^ 64 ∣ word.toNat + odd.toNat * (word * negInverse odd).toNat := by
  have cancelled : word + odd * (word * negInverse odd) = 0 := by
    rw [mul_left_comm, mul_negInverse odd isOdd]
    ring
  have remainder := congrArg UInt64.toNat cancelled
  rw [UInt64.toNat_add, UInt64.toNat_mul] at remainder
  apply Nat.dvd_of_mod_eq_zero
  rw [← Nat.add_mod_mod]
  exact remainder

/-- A product of words is congruent to the product of their numbers. -/
theorem toNat_mul_modEq
    (left right : Word) :
    (left * right).toNat ≡ left.toNat * right.toNat [MOD 2 ^ 64] := by
  rw [UInt64.toNat_mul]
  exact Nat.mod_modEq _ _

/--
A power of two that divides the difference of two words makes their numbers
congruent, as far as a word reaches.
-/
theorem modEq_of_dvd_sub
    {left right : Word}
    {bits : Nat}
    (divides : (2 : Word) ^ bits ∣ left - right) :
    left.toNat ≡ right.toNat [MOD 2 ^ min 64 bits] := by
  rcases divides with ⟨factor, difference⟩
  have wrap : 2 ^ min 64 bits ∣ 2 ^ 64 := pow_dvd_pow 2 (min_le_left 64 bits)
  have power : ((2 : Word) ^ bits).toNat ≡ 0 [MOD 2 ^ min 64 bits] := by
    have cast : (2 : Word) ^ bits = UInt64.ofNat (2 ^ bits) :=
      (Nat.cast_pow 2 bits).symm
    rw [cast, UInt64.toNat_ofNat']
    exact
      ((Nat.mod_modEq _ _).of_dvd wrap).trans
        (Nat.modEq_zero_iff_dvd.2 (pow_dvd_pow 2 (min_le_right 64 bits)))
  have multiple : (left - right).toNat ≡ 0 [MOD 2 ^ min 64 bits] := by
    rw [difference]
    calc
      ((2 : Word) ^ bits * factor).toNat ≡
          ((2 : Word) ^ bits).toNat * factor.toNat [MOD 2 ^ min 64 bits] :=
        (toNat_mul_modEq _ _).of_dvd wrap
      _ ≡ 0 * factor.toNat [MOD 2 ^ min 64 bits] := power.mul_right _
      _ = 0 := Nat.zero_mul _
  calc
    left.toNat = (left - right + right).toNat := by rw [sub_add_cancel]
    _ ≡ (left - right).toNat + right.toNat [MOD 2 ^ min 64 bits] := by
      rw [UInt64.toNat_add]
      exact (Nat.mod_modEq _ _).of_dvd wrap
    _ ≡ 0 + right.toNat [MOD 2 ^ min 64 bits] := multiple.add_right _
    _ = right.toNat := Nat.zero_add _

/--
What is found for a word: after each number of steps an approximation, with
three correct bits at first and twice as many after each step, and from five
steps on the inverse and its negation.
-/
structure FindsInverse (odd : Word) : Prop where
  approximates (steps : Nat) :
    odd.toNat * (inverseAfter odd steps).toNat ≡
      1 [MOD 2 ^ min 64 (3 * 2 ^ steps)]
  inverse :
    (inverse odd).toNat * odd.toNat ≡ 1 [MOD 2 ^ 64]
  negInverse :
    (negInverse odd).toNat * odd.toNat ≡ 2 ^ 64 - 1 [MOD 2 ^ 64]

/-- For every odd word the iteration finds its inverse. -/
theorem findsInverse_of_odd
    (odd : Word)
    (isOdd : odd.toNat % 2 = 1) :
    FindsInverse odd := by
  constructor
  case approximates =>
    intro steps
    have within : 2 ^ min 64 (3 * 2 ^ steps) ∣ 2 ^ 64 :=
      pow_dvd_pow 2 (min_le_left 64 _)
    exact
      ((toNat_mul_modEq _ _).of_dvd within).symm.trans
        (modEq_of_dvd_sub (dvd_inverseAfter odd isOdd steps))
  case inverse =>
    have product := toNat_mul_modEq (inverse odd) odd
    rw [mul_comm, mul_inverse odd isOdd] at product
    exact product.symm
  case negInverse =>
    have product := toNat_mul_modEq (negInverse odd) odd
    rw [mul_comm, mul_negInverse odd isOdd] at product
    exact product.symm

/--
Three is its own inverse in exactly three bits, so that each step is needed:
after four of them the highest bits are still wrong.
-/
theorem findsInverse_of_odd_three :
    FindsInverse 3 ∧
      3 * inverseAfter 3 4 = 1 - 2 ^ 48 ∧
      inverse 3 = 0xAAAAAAAAAAAAAAAB ∧
      negInverse 3 = 0x5555555555555555 :=
  ⟨findsInverse_of_odd 3 (by decide), by decide, by decide, by decide⟩

end ModularLadder.Word
