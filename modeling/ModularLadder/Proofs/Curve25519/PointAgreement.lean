import Mathlib
import ModularLadder.Proofs.Curve25519.Exchange

/-!
# Points answer what key agreement answers

There are two ways to a multiple on Curve25519.  Key agreement takes any
coordinate, divides the ladder's outcome by a power of its denominator and
leaves both as they are.  A point takes a canonical coordinate only, has the
multiples of the point of order two put in place, and keeps the point at
infinity apart.

Both answer with the coordinate of the multiple in the group of the curve.
The ladder of the base zero degenerates to the denominator zero, but the power
of zero is zero, which is the coordinate of the point of order two and the
number by which key agreement knows the point at infinity.
-/

namespace ModularLadder.Curve25519

open Bytes (littleEndianValue ofNatBigEndian ofNatLittleEndian)
open Field25519 (Residue prime)
open MontgomeryCurve (coordinate curve)

namespace Point

variable
  {K : Type*}
  [Field K]
  [Algebra Residue K]
  {point : Point}
  {P : (curve (486662 : K)).Point}
  {x : Residue}

/-- The point at infinity has no coordinate to write. -/
theorem toBytes_of_isInfinity
    (infinite : point.isInfinity = true) :
    point.toBytes = .error .pointAtInfinity := by
  rw [toBytes, if_pos infinite]

/--
A point is written by the residue of its coordinate, unless it is at infinity,
where that residue is zero.
-/
theorem Stands.toBytes_of_coordinate
    (stands : point.Stands P)
    (reads : coordinate P = algebraMap Residue K x) :
    (point.isInfinity = true ∧ x = 0) ∨
      (point.isInfinity = false ∧
        point.toBytes = .ok (ofNatBigEndian 32 x.val)) := by
  cases P with
  | zero =>
    refine Or.inl ⟨stands.isInfinity_iff.2 rfl, ?_⟩
    exact (map_eq_zero (algebraMap Residue K)).1 reads.symm
  | some abscissa ordinate h =>
    rcases stands.toBytes_eq with ⟨residue, residue_eq, written⟩
    have same : residue = x :=
      (algebraMap Residue K).injective (residue_eq.trans reads)
    have finite : ¬point.isInfinity = true := by
      rw [stands.isInfinity_iff]
      exact WeierstrassCurve.Affine.Point.some_ne_zero h
    rw [same] at written
    exact Or.inr ⟨Bool.eq_false_of_not_eq_true finite, written⟩

end Point

/--
Key agreement and points have the same multiples.  The coordinate without its
highest bit, taken modulo the prime, makes a point.  Either the multiple of
this point is at infinity and key agreement answers with zeros, or the point
is written by the bytes of the answer in the opposite order.
-/
theorem agree_matches_point
    (scalar u : Bytes) :
    ∃ base,
      Point.ofBytes
          (ofNatBigEndian 32 (littleEndianValue u % 2 ^ 255 % prime)) =
        .ok base ∧
      let multiple := base.scale scalar.reverse
      (multiple.isInfinity = true ∧
          multiple.toBytes = .error .pointAtInfinity ∧
          agree scalar u = List.replicate 32 0) ∨
        (multiple.isInfinity = false ∧
          multiple.toBytes = .ok (agree scalar u).reverse) := by
  classical
  let K := AlgebraicClosure Residue
  have canonical :
      littleEndianValue u % 2 ^ 255 % prime = (readResidue u).val := by
    rw [readResidue, ZMod.val_natCast]
  rcases
      (smooth_coefficient K).exists_nonsingular
        (algebraMap Residue K (readResidue u)) with
    ⟨y, h⟩
  let P : (curve (486662 : K)).Point := .some _ y h
  have above : coordinate P = algebraMap Residue K (readResidue u) := rfl
  rcases Point.ofResidue_stands h with ⟨base, made, stands⟩
  rcases answers_coordinate above scalar with ⟨answer, reads, answers⟩
  have multiple := stands.scale scalar.reverse
  rw [Bytes.bigEndianValue_reverse] at multiple
  refine ⟨base, by rw [canonical, made], ?_⟩
  rw [answers u rfl]
  rcases multiple.toBytes_of_coordinate reads with
    ⟨infinite, zero⟩ | ⟨finite, written⟩
  · refine Or.inl ⟨infinite, Point.toBytes_of_isInfinity infinite, ?_⟩
    rw [zero, ZMod.val_zero, Bytes.ofNatLittleEndian_zero]
  · exact Or.inr ⟨finite, written⟩

end ModularLadder.Curve25519
