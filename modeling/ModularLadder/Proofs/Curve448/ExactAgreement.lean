import Mathlib
import ModularLadder.Proofs.Curve448.KeyAgreement

/-!
# Key agreement on Curve448 in exact arithmetic

Key agreement is the ladder in the field modulo `p` along all bits of the
scalar, followed by the product with the power of exponent `p - 2` and the
encoding of the least number with that residue.

The library mends the ladder's outcome where this ladder degenerates: for the
base of order two and at infinity.  The quotient is not changed by that.  Both
are the coordinate of the multiple in the group of the curve, with zero for
the point at infinity.
-/

namespace ModularLadder.Curve448

open Bytes (littleEndianValue ofNatLittleEndian)
open Field448 (Residue prime)
open MontgomeryCurve (coordinate)

/-- The residue that key agreement encodes, in exact arithmetic. -/
def sharedResidue (count scalar u : Nat) : Residue :=
  let bits := Scalar.highestFirst count scalar
  let rungs := ExactLadder.ladder constant (u : Residue) bits
  rungs.x2 * rungs.z2 ^ (prime - 2)

/-- Only the residue of the coordinate matters. -/
theorem sharedResidue_congr
    {u v : Nat}
    (congruent : u ≡ v [MOD prime])
    (count scalar : Nat) :
    sharedResidue count scalar u = sharedResidue count scalar v := by
  rw [sharedResidue, (ZMod.natCast_eq_natCast_iff _ _ _).2 congruent,
    sharedResidue]

/-- Multiples of zero are zero: the ladder ends with the denominator zero. -/
theorem sharedResidue_of_dvd
    {u : Nat}
    (divides : prime ∣ u)
    (count scalar : Nat) :
    sharedResidue count scalar u = 0 := by
  have zero : (u : Residue) = 0 := (ZMod.natCast_eq_zero_iff _ _).2 divides
  rw [sharedResidue, zero, MontgomeryCurve.ladder_zero_denominator,
    Field448.pow_prime_sub_two, inv_zero, mul_zero]

/-- The coordinate of a multiple, by the exact ladder. -/
theorem algebraMap_sharedResidue
    {K : Type*}
    [Field K]
    [Algebra Residue K]
    [DecidableEq K]
    {P : CurvePoint K}
    {u : Nat}
    (reads : coordinate P = algebraMap Residue K u)
    {count scalar : Nat}
    (bound : scalar < 2 ^ count) :
    algebraMap Residue K (sharedResidue count scalar u) =
      coordinate (scalar • P) := by
  have slope : 4 * algebraMap Residue K constant = 156326 - 2 := by
    rw [constant, map_ofNat]
    norm_num
  have quotient :=
    MontgomeryCurve.algebraMap_ladder_quotient (smooth_coefficient K) slope
      reads (Scalar.highestFirst count scalar)
  rw [Scalar.climbed_of_lt bound] at quotient
  rw [sharedResidue, Field448.pow_prime_sub_two]
  exact quotient

/-- Every scalar has an answer, which encodes the residue of the ladder. -/
theorem agree_eq_sharedResidue
    (scalar u : Bytes)
    (length : u.length = Field448.byteLength) :
    agree scalar u =
      .ok
        (ofNatLittleEndian Field448.byteLength
          (sharedResidue (8 * scalar.length) (littleEndianValue scalar)
            (littleEndianValue u)).val) := by
  classical
  let K := AlgebraicClosure Residue
  have room := Bytes.littleEndianValue_lt u
  rw [length] at room
  have read : readResidue u = (littleEndianValue u : Residue) := by
    rw [readResidue, Nat.mod_eq_of_lt room]
  have bound := Bytes.littleEndianValue_lt_two_pow scalar
  rcases
      MontgomeryCurve.exists_coordinate (smooth_coefficient K)
        (algebraMap Residue K (littleEndianValue u : Residue)) with
    ⟨P, reads⟩
  rcases answers_coordinate reads scalar with ⟨answer, answer_eq, answers⟩
  have shared := algebraMap_sharedResidue reads bound
  rw [answer_eq] at shared
  rw [answers u read, (algebraMap Residue K).injective shared]

/--
Key agreement with a scalar of 56 bytes, clamped or not, and any coordinate of
56 bytes, canonical or not.  There is always an answer.  It is the canonical
encoding of the residue that the ladder reaches in exact arithmetic along all
448 bits.  Coordinates that are congruent have the same answer, and those that
are congruent to zero have the answer zero.
-/
theorem agree_follows_ladder
    (scalar u : Bytes)
    (scalarLength : scalar.length = 56)
    (coordinateLength : u.length = 56) :
    ∃ answer,
      agree scalar u = .ok answer ∧
        answer =
          ofNatLittleEndian 56
            (sharedResidue 448 (littleEndianValue scalar)
              (littleEndianValue u)).val ∧
        littleEndianValue answer < prime ∧
        (∀ other : Bytes,
          other.length = 56 →
            littleEndianValue other ≡ littleEndianValue u [MOD prime] →
              agree scalar other = .ok answer) ∧
        (prime ∣ littleEndianValue u → answer = List.replicate 56 0) := by
  have answers (other : Bytes) (length : other.length = 56) :=
    agree_eq_sharedResidue scalar other length
  rw [scalarLength] at answers
  refine ⟨_, answers u coordinateLength, rfl, ?_, ?_, ?_⟩
  · rw [Bytes.littleEndianValue_ofNatLittleEndian]
    exact (Nat.mod_le _ _).trans_lt (ZMod.val_lt _)
  · intro other length congruent
    rw [answers other length, sharedResidue_congr congruent]
  · intro divides
    rw [sharedResidue_of_dvd divides, ZMod.val_zero,
      Bytes.ofNatLittleEndian_zero]
    rfl

/-- The greatest scalar and the greatest coordinate, which is not canonical. -/
theorem agree_follows_ladder_greatest :
    let greatest : Bytes := List.replicate 56 255
    ∃ answer,
      agree greatest greatest = .ok answer ∧
        answer =
          ofNatLittleEndian 56
            (sharedResidue 448 (littleEndianValue greatest)
              (littleEndianValue greatest)).val ∧
        littleEndianValue answer < prime ∧
        (∀ other : Bytes,
          other.length = 56 →
            littleEndianValue other ≡ littleEndianValue greatest
                [MOD prime] →
              agree greatest other = .ok answer) ∧
        (prime ∣ littleEndianValue greatest →
          answer = List.replicate 56 0) :=
  agree_follows_ladder (List.replicate 56 255) (List.replicate 56 255) rfl rfl

end ModularLadder.Curve448
