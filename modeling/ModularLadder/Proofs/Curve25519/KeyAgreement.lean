import Mathlib
import ModularLadder.Curve25519.KeyAgreement
import ModularLadder.Proofs.Curve25519.Ladder
import ModularLadder.Proofs.Field25519.Inverse
import ModularLadder.Proofs.Scalar

/-!
# Key agreement on Curve25519 in exact arithmetic

Key agreement is the ladder in the ring modulo `p` along all bits of the
scalar, followed by the product with the power of exponent `p - 2` and the
encoding of the least number with that residue.

In its checked form every element is verified to be within the bounds that
the operation on it documents, and nothing overflows on the way.
-/

namespace ModularLadder.Curve25519

open Field25519 (Element Residue prime)

/-- The checked form of `agree`. -/
def agree? (scalar u : Bytes) : Option Bytes := do
  let x1 := Element.ofLittleEndian u
  let rungs ← ladder? x1 (Scalar.bits scalar.reverse)
  let inverse ← rungs.z2.inverse?
  let x ← rungs.x2.mul? inverse
  x.toLittleEndian?

/-- The residue that key agreement encodes, in exact arithmetic. -/
def sharedResidue (count scalar u : Nat) : Residue :=
  let bits := Scalar.highestFirst count scalar
  let rungs := ExactLadder.ladder (121665 : Residue) (u % 2 ^ 255 : Nat) bits
  rungs.x2 * rungs.z2 ^ (prime - 2)

theorem residue_ofLittleEndian
    (bytes : Bytes) :
    (Element.ofLittleEndian bytes).residue =
      (bytes.littleEndianValue % 2 ^ 255 : Nat) := by
  rw [Element.residue, Element.value_ofLittleEndian]

/-- A scalar of any length is climbed along all its bits. -/
theorem agree_eq
    (scalar u : Bytes) :
    agree? scalar u = some (agree scalar u) ∧
      agree scalar u =
        Bytes.ofNatLittleEndian 32
          (sharedResidue (8 * scalar.length) scalar.littleEndianValue
            u.littleEndianValue).val := by
  have bits := Scalar.bits_eq scalar.reverse
  rw [List.length_reverse, Bytes.bigEndianValue_reverse] at bits
  have base := (Element.nominal_ofLittleEndian u).reduced
  rcases
      ladder_exact base
        (Scalar.highestFirst (8 * scalar.length) scalar.littleEndianValue) with
    ⟨ladder_eq, reduced, residues⟩
  rw [← bits] at ladder_eq reduced residues
  have inverse := Element.inverse_computes reduced.z2.loose
  have affine := Element.mul_computes reduced.x2.loose inverse.loose
  constructor
  · rw [agree?, Field25519.bind_result ladder_eq, inverse.bind, affine.bind,
      Element.toLittleEndian_checked]
    rfl
  · have x2 := congrArg ExactLadder.Rungs.x2 residues
    have z2 := congrArg ExactLadder.Rungs.z2 residues
    rw [residue_ofLittleEndian] at x2 z2
    rw [agree, Element.toLittleEndian_eq, affine.residue_eq,
      inverse.residue_eq, sharedResidue, ← x2, ← z2]
    rfl

/--
Key agreement with a scalar of 32 bytes, clamped or not.  The coordinate is
taken as it is, canonical or not.  The checked form has the same outcome, so
that every sum has reduced operands, every other operation loose ones, and
nothing overflows.  A climb from the coordinate along any bits keeps all its
coordinates reduced.
-/
theorem agree_exact
    (scalar u : Bytes)
    (scalarLength : scalar.length = 32) :
    agree? scalar u = some (agree scalar u) ∧
      agree scalar u =
        Bytes.ofNatLittleEndian 32
          (sharedResidue 256 scalar.littleEndianValue
            u.littleEndianValue).val ∧
      (agree scalar u).littleEndianValue < prime ∧
      ∀ bits : List Bool,
        Climb.along? (Element.ofLittleEndian u) (bits.map Choice.ofBool) =
            some
              (Climb.along (Element.ofLittleEndian u)
                (bits.map Choice.ofBool)) ∧
          (Climb.along (Element.ofLittleEndian u)
            (bits.map Choice.ofBool)).rungs.Reduced := by
  rcases agree_eq scalar u with ⟨checked_eq, outcome⟩
  rw [scalarLength] at outcome
  refine ⟨checked_eq, outcome, ?_, ?_⟩
  · rw [outcome, Bytes.littleEndianValue_ofNatLittleEndian]
    exact (Nat.mod_le _ _).trans_lt (ZMod.val_lt _)
  · intro bits
    have base := (Element.nominal_ofLittleEndian u).reduced
    rcases Climb.along_follows base bits with ⟨along_eq, follows⟩
    exact ⟨along_eq, follows.reduced⟩

/-- The base point's coordinate used as the scalar as well. -/
theorem agree_exact_nine :
    let nine : Bytes := 9 :: List.replicate 31 0
    agree? nine nine = some (agree nine nine) ∧
      agree nine nine =
        Bytes.ofNatLittleEndian 32 (sharedResidue 256 9 9).val ∧
      (agree nine nine).littleEndianValue < prime ∧
      ∀ bits : List Bool,
        Climb.along? (Element.ofLittleEndian nine) (bits.map Choice.ofBool) =
            some
              (Climb.along (Element.ofLittleEndian nine)
                (bits.map Choice.ofBool)) ∧
          (Climb.along (Element.ofLittleEndian nine)
            (bits.map Choice.ofBool)).rungs.Reduced :=
  agree_exact (9 :: List.replicate 31 0) (9 :: List.replicate 31 0) rfl

end ModularLadder.Curve25519
