import Mathlib
import ModularLadder.Proofs.Curve25519.Point
import ModularLadder.Proofs.Ed25519.Reachable

/-!
# The ladders on Curve25519 and Ed25519 agree

Curve25519 is the Montgomery curve that belongs to Ed25519: the point `(x, y)`
goes to a point with x-coordinate `(1 + y) / (1 - y)`, and the neutral point to
infinity.  The map is additive, and so it takes multiples to multiples.

Each ladder finds the multiples of its own group, although one of them knows
x-coordinates only and the other one has complete formulas for points.  Hence
the outcome on Curve25519 is the image of the outcome on Ed25519, for every
point and every scalar.  The point of order two, whose image has x-coordinate
zero, is no exception.
-/

namespace ModularLadder.Ed25519

open EdwardsCurve (HasCompanion abscissa image)
open Field25519 (Residue prime)

/-- The coefficients of the two curves fit each other. -/
theorem coefficient_companion :
    486662 * (-1 - coefficient) = 2 * (-1 + coefficient) := by
  have denominator := denominator_ne_zero
  rw [coefficient, Nat.cast_ofNat, Nat.cast_ofNat]
  field_simp
  norm_num

/-- Only the neutral point and the one that goes to the origin have `x = 0`. -/
theorem abscissa_of_x_eq_zero
    {P : curve.Point}
    (zero : P.x = 0)
    (finite : P.y ≠ 1) :
    abscissa P.y = 0 := by
  rcases EdwardsCurve.Point.eq_of_x_eq_zero zero with neutral | orderTwo
  · exact absurd (EdwardsCurve.Point.eq_zero_iff_y_eq_one.1 neutral) finite
  · rw [orderTwo, abscissa, EdwardsCurve.Point.orderTwo_y, add_neg_cancel,
      zero_div]

section

variable
  {L : Type*}
  [Field L]

/-- Curve25519 belongs to Ed25519 over every algebraically closed field. -/
theorem exists_companion
    [IsAlgClosed L]
    (f : Residue →+* L) :
    ∃ r, HasCompanion curve f 486662 r := by
  rcases EdwardsCurve.exists_companion curve f with ⟨A, r, companion⟩
  have fits := congrArg f coefficient_companion
  rw [map_mul, map_mul, map_sub, map_add, map_ofNat, map_ofNat] at fits
  have coefficient_eq : A = 486662 := by
    apply mul_right_cancel₀ companion.a_sub_d_ne_zero
    rw [companion.coefficient, curve_a, curve_d, fits]
  rw [← coefficient_eq]
  exact ⟨r, companion⟩

theorem map_abscissa
    (f : Residue →+* L)
    (y : Residue) :
    f (abscissa y) = abscissa (f y) := by
  rw [abscissa, abscissa, map_div₀, map_add, map_sub, map_one]

theorem one_sub_map_ne_zero
    (f : Residue →+* L)
    {y : Residue}
    (finite : y ≠ 1) :
    1 - f y ≠ 0 := by
  rw [← map_one f, ← map_sub, map_ne_zero, sub_ne_zero]
  exact finite.symm

variable
  [Algebra Residue L]
  [DecidableEq L]
  {r : L}
  (companion : HasCompanion curve (algebraMap Residue L) 486662 r)
  {P : curve.Point}

/-- The written abscissa of a point makes the image of the point. -/
theorem exists_stands_image
    (finite : P.y ≠ 1) :
    ∃ start,
      Curve25519.Point.ofBytes
          (Bytes.ofNatBigEndian 32 (abscissa P.y).val) =
        .ok start ∧
      start.Stands (image companion P) := by
  let f := algebraMap Residue L
  rcases
      EdwardsCurve.image_of_finite companion (one_sub_map_ne_zero f finite) with
    ⟨h, image_eq⟩
  rw [image_eq]
  clear image_eq
  revert h
  rw [← map_abscissa]
  exact Curve25519.Point.ofResidue_stands

variable
  {companion}

/-- What is read off a point that stands for an image. -/
theorem read_image
    {point : Curve25519.Point}
    (stands : point.Stands (image companion P)) :
    (point.isInfinity = true ↔ P.y = 1) ∧
      (point.isInfinity = false →
        ∃ x,
          point.toBytes = .ok x ∧
            (x.bigEndianValue : Residue) * (1 - P.y) = 1 + P.y) := by
  let f := algebraMap Residue L
  have infinity : point.isInfinity = true ↔ P.y = 1 := by
    rw [stands.isInfinity_iff, EdwardsCurve.image_eq_zero_iff]
  refine ⟨infinity, ?_⟩
  intro notInfinite
  have finite : P.y ≠ 1 := by
    rw [ne_eq, ← infinity, notInfinite]
    decide
  rcases
      EdwardsCurve.image_of_finite companion (one_sub_map_ne_zero f finite) with
    ⟨h, image_eq⟩
  rw [image_eq] at stands
  rcases stands.toBytes_eq with ⟨u, u_eq, written⟩
  have same : u = abscissa P.y := by
    apply f.injective
    rw [map_abscissa]
    exact u_eq
  refine ⟨_, written, ?_⟩
  rw [Field25519.bigEndianValue_ofNat_val, ZMod.natCast_zmod_val, same,
    abscissa]
  exact div_mul_cancel₀ _ (sub_ne_zero.2 finite.symm)

end

namespace Point

/--
The two ladders agree.  The multiple on Curve25519 of the point with the
x-coordinate `(1 + y) / (1 - y)` is at infinity exactly if the multiple on
Ed25519 is the neutral point, and otherwise its x-coordinate is that of the
multiple on Ed25519.  The point of order two goes to x-coordinate zero.
-/
theorem Reachable.ladders_agree
    {point : Point}
    (reachable : Reachable point)
    (finite : point.affineY ≠ 1)
    (scalar : Bytes) :
    let u := (1 + point.affineY) / (1 - point.affineY)
    let y := (point.scale scalar).toBytes.2.bigEndianValue
    (point.affineX = 0 → u = 0) ∧
      ∃ start,
        Curve25519.Point.ofBytes (Bytes.ofNatBigEndian 32 u.val) = .ok start ∧
          let multiple := start.scale scalar
          (multiple.isInfinity = true ↔ y = 1) ∧
            (y = 1 ↔ Same (point.scale scalar) Point.neutral) ∧
            (multiple.isInfinity = false →
              ∃ x,
                multiple.toBytes = .ok x ∧
                  (x.bigEndianValue : Residue) * (1 - y) = 1 + y) := by
  classical
  intro u y
  rcases reachable.exists_stands with ⟨P, stands⟩
  have multiple := (stands.scale scalar).stands
  have y_eq : y = (scalar.bigEndianValue • P).y.val := by
    show (point.scale scalar).toBytes.2.bigEndianValue = _
    rw [multiple.toBytes_eq, Field25519.bigEndianValue_ofNat_val]
  have y_one : y = 1 ↔ (scalar.bigEndianValue • P).y = 1 := by
    rw [y_eq, ZMod.val_eq_one (by decide)]
  have u_eq : u = abscissa P.y := by
    show (1 + point.affineY) / (1 - point.affineY) = _
    rw [stands.affineY_eq, abscissa]
  rw [stands.affineY_eq] at finite
  constructor
  · intro zero
    rw [stands.affineX_eq] at zero
    rw [u_eq, abscissa_of_x_eq_zero zero finite]
  · rcases exists_companion (algebraMap Residue (AlgebraicClosure Residue)) with
      ⟨r, companion⟩
    rcases exists_stands_image companion finite with
      ⟨start, accepted, startStands⟩
    have climbed := startStands.scale scalar
    rw [← EdwardsCurve.image_nsmul] at climbed
    rcases read_image climbed with ⟨infinite, written⟩
    rw [u_eq]
    refine ⟨start, accepted, infinite.trans y_one.symm, ?_, ?_⟩
    · rw [y_one, multiple.same_iff stands_neutral,
        EdwardsCurve.Point.eq_zero_iff_y_eq_one]
    · rw [y_eq, ZMod.natCast_zmod_val]
      exact written

/-- The point of order two, which goes to the origin. -/
theorem Reachable.ladders_agree_orderTwo :
    ∃ point start,
      Reachable point ∧
        point.affineX = 0 ∧
        point.affineY ≠ 1 ∧
        Curve25519.Point.ofBytes (Bytes.ofNatBigEndian 32 0) = .ok start ∧
        ((start.scale [3]).isInfinity = true ↔
          (point.scale [3]).toBytes.2.bigEndianValue = 1) := by
  rcases ofBytes_coordinates EdwardsCurve.Point.orderTwo with
    ⟨point, accepted, stands⟩
  have reachable := Reachable.ofBytes accepted
  have abscissa : point.affineX = 0 := by
    rw [stands.affineX_eq, EdwardsCurve.Point.orderTwo_x]
  have finite : point.affineY ≠ 1 := by
    rw [stands.affineY_eq, EdwardsCurve.Point.orderTwo_y]
    decide
  rcases ladders_agree reachable finite [3] with
    ⟨origin, start, startAccepted, infinite, -⟩
  rw [origin abscissa, ZMod.val_zero] at startAccepted
  exact ⟨point, start, reachable, abscissa, finite, startAccepted, infinite⟩

end Point

end ModularLadder.Ed25519
