import Mathlib
import ModularLadder.Proofs.Curve448.Point
import ModularLadder.Proofs.Ed448.Reachable
import ModularLadder.Proofs.EdwardsIsogeny

/-!
# The ladders on Curve448 and Ed448 agree

Curve448 is not the Montgomery curve that belongs to Ed448 but one that an
isogeny leads to: the point `(x, y)` goes to a point with the abscissa
`y^2 / x^2`.  The two points with `x = 0` go to infinity, and the two with
`y = 0` to the point of order two.

An image need not have an ordinate among the residues, but its multiples do
not depend on that.  Hence the outcome on Curve448 is the image of the outcome
on Ed448, for every point and every scalar.  In particular the multiples that
are put in place for the point of order two, which the ladder itself does not
find, are the images of multiples as well.
-/

namespace ModularLadder.Ed448

open EdwardsCurve (Isogenous IsogenyCoefficient)
open Field448 (Residue)

section

variable
  {L : Type*}
  [Field L]

/-- The isogeny leads from Ed448 to Curve448, over every field. -/
theorem isogenyCoefficient
    (f : Residue →+* L) :
    IsogenyCoefficient (f curve.a) (f curve.d) (156326 : L) := by
  constructor
  rw [curve_a, curve_d, coefficient, map_one, map_neg, map_natCast]
  norm_num

variable
  [Algebra Residue L]
  {P : CurvePoint}

/-- The written abscissa of an image makes some image of the point. -/
theorem exists_stands_isogenous
    [IsAlgClosed L]
    {context : Curve448.CurveContext}
    (sound : context.Sound)
    (nonzero : P.x ≠ 0) :
    ∃ start,
      ∃ R : Curve448.CurvePoint L,
        Curve448.Point.ofBytes context
            (Bytes.ofNatBigEndian Field448.byteLength
              (P.y ^ 2 / P.x ^ 2).val) =
          .ok start ∧
        start.Stands context R ∧
        Isogenous (algebraMap Residue L) P R := by
  let f := algebraMap Residue L
  let u := P.y ^ 2 / P.x ^ 2
  rcases (Curve448.smooth_coefficient L).exists_nonsingular (f u) with
    ⟨ordinate, h⟩
  rcases Curve448.Point.ofResidue_stands sound h with
    ⟨start, accepted, stands⟩
  refine ⟨start, _, accepted, stands, nonzero, ?_⟩
  rw [curve_a, map_one, one_mul, ← map_pow, ← map_pow, ← map_mul,
    div_mul_cancel₀ _ (pow_ne_zero 2 nonzero)]

/-- What is read off a point that stands for an image. -/
theorem read_isogenous
    {context : Curve448.CurveContext}
    {point : Curve448.Point}
    {R : Curve448.CurvePoint L}
    (sound : context.Sound)
    (stands : point.Stands context R)
    (isogenous : Isogenous (algebraMap Residue L) P R) :
    (point.isInfinity = true ↔ P.x = 0) ∧
      (point.isInfinity = false →
        ∃ x,
          point.toBytes = .ok x ∧
            (x.bigEndianValue : Residue) * P.x ^ 2 = P.y ^ 2) := by
  cases R with
  | zero =>
    have infinite := stands.isInfinity_iff.2 rfl
    refine ⟨⟨fun _ => isogenous, fun _ => infinite⟩, ?_⟩
    rw [infinite]
    intro different
    exact absurd different (by decide)
  | some abscissa ordinate h =>
    rcases isogenous with ⟨nonzero, equation⟩
    constructor
    · rw [stands.isInfinity_iff]
      constructor
      · intro infinite
        exact absurd infinite (WeierstrassCurve.Affine.Point.some_ne_zero h)
      · intro zero
        exact absurd zero nonzero
    · intro _
      rcases stands.toBytes_eq sound with ⟨u, u_eq, written⟩
      refine ⟨_, written, (algebraMap Residue L).injective ?_⟩
      rw [curve_a, map_one, one_mul] at equation
      rw [Field448.bigEndianValue_ofNat_val, ZMod.natCast_zmod_val, map_mul,
        map_pow, map_pow, u_eq, equation]

end

namespace Point

/--
The two ladders agree.  The multiple on Curve448 of the point with the
abscissa `y^2 / x^2` is at infinity exactly if the multiple on Ed448 has the
first coordinate zero, and otherwise its abscissa is that of the multiple on
Ed448.  The points with `y = 0` go to the abscissa zero.
-/
theorem Reachable.isogenous_ladders_agree
    {identity : Nat}
    {context : CurveContext}
    (made : CurveContext.ofIdentity identity = .ok context)
    {ladderIdentity : Nat}
    {ladderContext : Curve448.CurveContext}
    (ladderMade :
      Curve448.CurveContext.ofIdentity ladderIdentity = .ok ladderContext)
    {point : Point}
    (reachable : Reachable context point)
    (nonzero : point.affineX ≠ 0)
    (scalar : Bytes) :
    let u := point.affineY ^ 2 / point.affineX ^ 2
    (point.affineY = 0 → u = 0) ∧
      ∃ start x y,
        Curve448.Point.ofBytes ladderContext
            (Bytes.ofNatBigEndian Field448.byteLength u.val) =
          .ok start ∧
        (point.scale scalar).toBytes = .ok (x, y) ∧
          let multiple := start.scale scalar
          (multiple.isInfinity = true ↔ x.bigEndianValue = 0) ∧
            (multiple.isInfinity = false →
              ∃ abscissa,
                multiple.toBytes = .ok abscissa ∧
                  (abscissa.bigEndianValue : Residue) *
                      x.bigEndianValue ^ 2 =
                    y.bigEndianValue ^ 2) := by
  classical
  intro u
  have sound := CurveContext.sound_of_ofIdentity made
  have ladderSound := Curve448.CurveContext.sound_of_ofIdentity ladderMade
  let L := AlgebraicClosure Residue
  let f := algebraMap Residue L
  rcases reachable.exists_stands sound with ⟨P, stands⟩
  have multiple := stands.scale sound scalar
  have u_eq : u = P.y ^ 2 / P.x ^ 2 := by
    show point.affineY ^ 2 / point.affineX ^ 2 = _
    rw [stands.affineX_eq, stands.affineY_eq]
  rw [stands.affineX_eq] at nonzero
  constructor
  · intro zero
    rw [stands.affineY_eq] at zero
    rw [u_eq, zero, zero_pow (by decide), zero_div]
  · rcases exists_stands_isogenous (L := L) ladderSound nonzero with
      ⟨start, R, accepted, startStands, isogenous⟩
    have climbed := startStands.scale ladderSound scalar
    have image :=
      isogenous.nsmul (isogenyCoefficient f) scalar.bigEndianValue
    rcases read_isogenous ladderSound climbed image with ⟨infinite, written⟩
    rw [u_eq]
    refine ⟨start, _, _, accepted, multiple.toBytes_eq sound, ?_, ?_⟩
    · simp [infinite]
    · simpa using written

/-- The point `(1, 0)` of order four, which goes to the one of order two. -/
theorem Reachable.isogenous_ladders_agree_orderFour :
    ∃ context ladderContext point start x y,
      CurveContext.ofIdentity 0 = .ok context ∧
        Curve448.CurveContext.ofIdentity 0 = .ok ladderContext ∧
        Reachable context point ∧
        point.affineX ≠ 0 ∧
        point.affineY = 0 ∧
        Curve448.Point.ofBytes ladderContext
            (Bytes.ofNatBigEndian Field448.byteLength 0) =
          .ok start ∧
        (point.scale [3]).toBytes = .ok (x, y) ∧
        ((start.scale [3]).isInfinity = true ↔ x.bigEndianValue = 0) := by
  let P : CurvePoint :=
    { x := 1
      y := 0
      solves := by simp [EdwardsCurve.Solves] }
  rcases CurveContext.exists_ofIdentity 0 with ⟨context, made, sound⟩
  rcases Curve448.CurveContext.exists_ofIdentity 0 with
    ⟨ladderContext, ladderMade, -⟩
  rcases ofBytes_coordinates sound P with ⟨point, accepted, stands⟩
  have reachable := Reachable.ofBytes accepted
  have nonzero : point.affineX ≠ 0 := by
    rw [stands.affineX_eq]
    exact one_ne_zero
  have zero : point.affineY = 0 := stands.affineY_eq
  rcases isogenous_ladders_agree made ladderMade reachable nonzero [3] with
    ⟨origin, start, x, y, startAccepted, written, infinite, -⟩
  rw [origin zero, ZMod.val_zero] at startAccepted
  exact
    ⟨context, ladderContext, point, start, x, y, made, ladderMade, reachable,
      nonzero, zero, startAccepted, written, infinite⟩

end Point

end ModularLadder.Ed448
