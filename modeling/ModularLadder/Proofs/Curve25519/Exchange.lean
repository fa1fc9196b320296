import Mathlib
import ModularLadder.Proofs.Curve25519.KeyAgreement
import ModularLadder.Proofs.Curve25519.Point
import ModularLadder.Proofs.SharedCoordinate

/-!
# Two parties agree on Curve25519

The answer of key agreement is the coordinate of the multiple of any point with
the given coordinate, over any field that has one.  It is canonical, so that
it is read as the same number by the next scalar, and the order in which two
scalars follow each other does not matter.

No coordinate is an exception.  One without a point over the residues belongs
to a point of the twist, and zero to the point of order two and to the one at
infinity alike.
-/

namespace ModularLadder.Curve25519

open Bytes (littleEndianValue ofNatLittleEndian)
open Field25519 (Residue prime)
open MontgomeryCurve (coordinate curve)

/-- The residue that a coordinate is read as, without its highest bit. -/
def readResidue (bytes : Bytes) : Residue :=
  (littleEndianValue bytes % 2 ^ 255 : Nat)

/-- A residue is read as it was written. -/
theorem readResidue_written
    (x : Residue) :
    readResidue (ofNatLittleEndian 32 x.val) = x := by
  have less : x.val < prime := ZMod.val_lt x
  have wide : prime < 256 ^ 32 := by
    decide
  have narrow : prime < 2 ^ 255 := by
    decide
  rw [readResidue, Bytes.littleEndianValue_ofNatLittleEndian,
    Nat.mod_eq_of_lt (less.trans wide), Nat.mod_eq_of_lt (less.trans narrow),
    ZMod.natCast_zmod_val]

/-- What a scalar answers to a coordinate with a given residue. -/
def Answers (scalar : Bytes) (x answer : Residue) : Prop :=
  ∀ u, readResidue u = x →
    agree scalar u = ofNatLittleEndian 32 answer.val

/-- Key agreement answers with the coordinate of the multiple. -/
theorem answers_coordinate
    {K : Type*}
    [Field K]
    [Algebra Residue K]
    [DecidableEq K]
    {P : (curve (486662 : K)).Point}
    {x : Residue}
    (reads : coordinate P = algebraMap Residue K x)
    (scalar : Bytes) :
    ∃ answer : Residue,
      coordinate (littleEndianValue scalar • P) =
          algebraMap Residue K answer ∧
        Answers scalar x answer := by
  let bits :=
    Scalar.highestFirst (8 * scalar.length) (littleEndianValue scalar)
  let rungs := ExactLadder.ladder (121665 : Residue) x bits
  have bound := Bytes.littleEndianValue_lt_two_pow scalar
  have number : Scalar.climbed bits 0 = littleEndianValue scalar :=
    Scalar.climbed_of_lt bound
  have constant : 4 * algebraMap Residue K 121665 = 486662 - 2 := by
    rw [map_ofNat]
    norm_num
  have quotient :=
    MontgomeryCurve.algebraMap_ladder_quotient (smooth_coefficient K) constant
      reads bits
  rw [number] at quotient
  refine ⟨rungs.x2 * rungs.z2 ^ (prime - 2), ?_, ?_⟩
  · rw [Field25519.pow_prime_sub_two]
    exact quotient.symm
  · rintro u rfl
    exact (agree_eq scalar u).2

/--
Two parties agree: it does not matter in which order two scalars are used.
The scalars need not be clamped, and the coordinate is any, canonical or not.
-/
theorem agree_symmetric
    (first second u : Bytes) :
    agree first (agree second u) = agree second (agree first u) := by
  classical
  let K := AlgebraicClosure Residue
  rcases
      MontgomeryCurve.exists_shared (smooth_coefficient K) answers_coordinate
        first second (readResidue u) with
    ⟨a, b, shared, first_u, second_u, second_a, first_b⟩
  rw [first_u u rfl, second_u u rfl, second_a _ (readResidue_written a),
    first_b _ (readResidue_written b)]

end ModularLadder.Curve25519
