import Mathlib
import ModularLadder.Proofs.Curve25519.Reachable
import ModularLadder.Proofs.Curve448.Reachable
import ModularLadder.Proofs.Ed25519.Reachable
import ModularLadder.Proofs.Ed448.Reachable

/-!
# Equality of points

All four curves compare points by cross products, without a division.  For all
points that programs meet, this is the comparison of the canonical bytes that
are written after a division.

The reasons differ.  On the Edwards curves the formulas are complete, so that
no denominator ever vanishes.  On the Montgomery curves denominators vanish at
infinity, and the ladder can end with `0 / 0` for the base of order two, but no
multiple is left in that state.
-/

namespace ModularLadder

/--
Cross products compare the x-coordinates of points, on both Montgomery curves.
They agree exactly if both points are at infinity, or if neither is and both
are written by the same bytes.  Hence the comparison is an equivalence, only
the point at infinity equals it, and the coordinates of a point are never both
zero modulo the prime.
-/
theorem cross_products_compare_coordinates :
    (ComparesCoordinates Curve25519.Point.Reachable Curve25519.Point.compare
        Curve25519.Point.isInfinity Curve25519.Point.toBytes
        Curve25519.Point.infinity ∧
      ∀ point, Curve25519.Point.Reachable point →
        ¬(Field25519.prime ∣ point.x.value ∧
          Field25519.prime ∣ point.z.value)) ∧
    ∀ identity, ∃ context,
      Curve448.CurveContext.ofIdentity identity = .ok context ∧
        ComparesCoordinates (Curve448.Point.Reachable context)
          Curve448.Point.eq Curve448.Point.isInfinity Curve448.Point.toBytes
          (Curve448.Point.infinity context) ∧
        ∀ point, Curve448.Point.Reachable context point →
          ¬(Field448.prime ∣ Words.value point.coordinates.x ∧
            Field448.prime ∣ Words.value point.coordinates.z) := by
  constructor
  · refine ⟨Curve25519.Point.compares_coordinates, ?_⟩
    intro point reachable
    exact reachable.not_both_multiples
  · intro identity
    rcases Curve448.CurveContext.exists_ofIdentity identity with
      ⟨context, made, sound⟩
    refine ⟨context, made, Curve448.Point.compares_coordinates sound, ?_⟩
    intro point reachable
    exact reachable.not_both_multiples sound

/--
Cross products compare the affine coordinates of points, on both Edwards
curves.  They agree exactly if both points are written by the same bytes.
Hence the comparison is an equivalence, and it is the same for all valid
representations of the points.
-/
theorem cross_products_compare_pairs :
    ComparesPairs Ed25519.Point.Reachable Ed25519.Point.Valid
        Ed25519.Point.compare (fun point => .ok point.toBytes)
        (fun point => (point.affineX, point.affineY)) ∧
    ∀ identity, ∃ context,
      Ed448.CurveContext.ofIdentity identity = .ok context ∧
        ComparesPairs (Ed448.Point.Reachable context)
          (Ed448.Point.Valid context) Ed448.Point.eq Ed448.Point.toBytes
          fun point => (point.affineX, point.affineY) := by
  refine ⟨Ed25519.Point.compares_pairs, ?_⟩
  intro identity
  rcases Ed448.CurveContext.exists_ofIdentity identity with
    ⟨context, made, sound⟩
  exact ⟨context, made, Ed448.Point.compares_pairs sound⟩

end ModularLadder
