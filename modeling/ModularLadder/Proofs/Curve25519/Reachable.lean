import Mathlib
import ModularLadder.Proofs.Curve25519.Point
import ModularLadder.Proofs.PointComparison

/-!
# The points that programs on Curve25519 meet

A point is reachable if it is built from an accepted coordinate or the point
at infinity by multiplications and copies.  Over a field in which every number
has a square root, every reachable point stands for a point of the curve, by
induction on how it is built.

The coordinates of what stands for a point are not zero both.  The ladder
alone does not ensure that: for the base of order two it can end with `0 / 0`,
which the multiples put in place undo.  Hence the comparison of reachable
points, by cross products, is that of the coordinates they are written by.
-/

namespace ModularLadder.Curve25519.Point

open Field25519 (Element Residue prime)
open MontgomeryCurve (curve)

/--
The points that are built by the operations on points.  A clone of a point is
the point itself.
-/
inductive Reachable : Point → Prop where
  | ofBytes
      {x : Bytes}
      {point : Point}
      (accepted : Point.ofBytes x = .ok point) :
      Reachable point
  | infinity : Reachable Point.infinity
  | scale
      {point : Point}
      (reachable : Reachable point)
      (scalar : Bytes) :
      Reachable (point.scale scalar)
  | copyFrom
      {point source : Point}
      (reachable : Reachable point)
      (sourceReachable : Reachable source) :
      Reachable (point.copyFrom source)

/-- The affine x-coordinate as a residue, or none at infinity. -/
def abscissa (point : Point) : Option Residue :=
  affinePart point.x.residue point.z.residue

/-- The comparison of two points, which has an answer whatever they are. -/
def compare (left right : Point) : Except Failure Bool :=
  .ok (left.eq right).isSet

section

variable
  {K : Type*}
  [Field K]
  [Algebra Residue K]
  {point left right : Point}
  {P Q : (curve (486662 : K)).Point}

variable (K) in
/-- Whatever is accepted stands for a point over a large enough field. -/
theorem exists_stands_of_ofBytes
    [IsAlgClosed K]
    {x : Bytes}
    (accepted : ofBytes x = .ok point) :
    ∃ P : (curve (486662 : K)).Point, point.Stands P := by
  have canonical : x.length = 32 ∧ x.bigEndianValue < prime := by
    by_contra refused
    rw [ofBytes_eq, if_neg refused] at accepted
    cases accepted
  rcases
      (smooth_coefficient K).exists_nonsingular (x.bigEndianValue : K) with
    ⟨y, h⟩
  rcases ofBytes_stands canonical.1 canonical.2 h with
    ⟨other, other_accepted, stands⟩
  rw [accepted] at other_accepted
  rw [Except.ok.inj other_accepted]
  exact ⟨_, stands⟩

variable (K) in
/-- Every reachable point stands for a point of the curve. -/
theorem Reachable.exists_stands
    [IsAlgClosed K]
    (reachable : Reachable point) :
    ∃ P : (curve (486662 : K)).Point, point.Stands P := by
  classical
  induction reachable with
  | ofBytes accepted => exact exists_stands_of_ofBytes K accepted
  | infinity => exact ⟨0, stands_infinity⟩
  | scale _ scalar ih =>
    rcases ih with ⟨P, stands⟩
    exact ⟨scalar.bigEndianValue • P, stands.scale scalar⟩
  | copyFrom _ _ _ ih => exact ih

theorem Stands.not_both_zero
    (stands : point.Stands P) :
    ¬(point.x.residue = 0 ∧ point.z.residue = 0) := by
  have proper := stands.represents.not_both_zero
  rw [embed, embed, map_eq_zero, map_eq_zero] at proper
  exact proper

/-- Cross products compare the coordinates of points. -/
theorem Stands.compare_eq
    (first : left.Stands P)
    (second : right.Stands Q) :
    left.compare right = .ok (decide (left.abscissa = right.abscissa)) := by
  have product :=
    Element.mul_computes first.x_reduced.loose second.z_reduced.loose
  have product' :=
    Element.mul_computes second.x_reduced.loose first.z_reduced.loose
  have products :=
    cross_products_iff first.not_both_zero second.not_both_zero
  rw [compare, eq, Element.eq_eq, Choice.isSet_ofBool, product.residue_eq,
    product'.residue_eq]
  exact congrArg Except.ok (decide_eq_decide.2 products)

/-- A point is written by its coordinate. -/
theorem Stands.toBytes_of_abscissa
    {u : Residue}
    (stands : point.Stands P)
    (reads : point.abscissa = some u) :
    point.toBytes = .ok (Bytes.ofNatBigEndian 32 u.val) := by
  rcases affinePart_eq_some_iff.1 reads with ⟨finite, quotient⟩
  rw [toBytes, isInfinity_eq, if_neg (by rwa [decide_eq_true_eq]),
    Element.toBigEndian_eq, stands.affine_quotient.2, ← div_eq_mul_inv,
    quotient]

end

theorem isInfinity_eq_isNone
    (point : Point) :
    point.isInfinity = point.abscissa.isNone := by
  rw [isInfinity_eq, Bool.eq_iff_iff, decide_eq_true_eq,
    Option.isNone_iff_eq_none, abscissa, affinePart_eq_none_iff]

/-- The comparison of reachable points is that of the bytes they are written by. -/
theorem compares_coordinates :
    ComparesCoordinates Reachable compare isInfinity toBytes infinity := by
  let K := AlgebraicClosure Residue
  have compares : ComparesBy Reachable compare abscissa := by
    intro left right leftReachable rightReachable
    rcases leftReachable.exists_stands K with ⟨P, first⟩
    rcases rightReachable.exists_stands K with ⟨Q, second⟩
    exact first.compare_eq second
  apply compares.comparesCoordinates Field25519.ofNatBigEndian_val_injective
  · exact .infinity
  · exact affinePart_eq_none_iff.2 Element.residue_zero
  · intro point _
    exact point.isInfinity_eq_isNone
  · intro point u reachable reads
    rcases reachable.exists_stands K with ⟨P, stands⟩
    exact stands.toBytes_of_abscissa reads

/-- Numerator and denominator of a reachable point are not zero both. -/
theorem Reachable.not_both_multiples
    {point : Point}
    (reachable : Reachable point) :
    ¬(prime ∣ point.x.value ∧ prime ∣ point.z.value) := by
  rcases reachable.exists_stands (AlgebraicClosure Residue) with ⟨P, stands⟩
  rw [← Element.residue_eq_zero_iff, ← Element.residue_eq_zero_iff]
  exact stands.not_both_zero

end ModularLadder.Curve25519.Point
