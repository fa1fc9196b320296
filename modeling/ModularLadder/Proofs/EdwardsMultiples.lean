import Mathlib
import ModularLadder.Proofs.EdwardsGroup
import ModularLadder.Proofs.Scalar

/-!
# Multiples on an Edwards curve, evaluated with numbers

Projective coordinates need no division for sums.  Modulo a prime they may be
kept as numbers, and then a multiple of a given point by a given number is
found by evaluation, along the bits of the number.

The evaluation is not part of any program, and it shares no formula with the
ladders on points.  It serves to know the order of a point.
-/

namespace ModularLadder.EdwardsCurve

/-- Projective coordinates as numbers, of which the remainders matter. -/
structure Numbers where
  x : Nat
  y : Nat
  z : Nat

namespace Numbers

/-- The neutral point. -/
def neutral : Numbers :=
  { x := 0, y := 1, z := 1 }

section

variable (modulus minusA d : Nat)

/-- The sum of two points, with numbers for `-a` and `d`. -/
def sum (left right : Numbers) : Numbers :=
  let denominator := left.z * right.z % modulus
  let xx := left.x * right.x % modulus
  let yy := left.y * right.y % modulus
  let cross := d * (xx * yy % modulus) % modulus
  let plus := denominator ^ 2 + cross
  let minus := denominator ^ 2 + (modulus - cross)
  { x :=
      denominator * minus % modulus *
        (left.x * right.y + left.y * right.x) % modulus
    y := denominator * plus % modulus * (yy + minusA * xx) % modulus
    z := minus * plus % modulus }

/-- One bit of a number: the point reached is doubled, and the base added. -/
def bit (base reached : Numbers) (bit : Bool) : Numbers :=
  let doubled := reached.sum modulus minusA d reached
  if bit then doubled.sum modulus minusA d base else doubled

/-- The multiple of a point by the number that the bits give. -/
def multiple (base : Numbers) (bits : List Bool) : Numbers :=
  bits.foldl (base.bit modulus minusA d) neutral

end

variable
  {modulus : Nat}
  [Fact modulus.Prime]
  {curve : EdwardsCurve (ZMod modulus)}

/-- Numbers whose residues are projective coordinates of a point. -/
def Represent (numbers : Numbers) (P : curve.Point) : Prop :=
  Projective (numbers.x : ZMod modulus) (numbers.y : ZMod modulus)
    (numbers.z : ZMod modulus) P

theorem represent_neutral :
    neutral.Represent (0 : curve.Point) := by
  have projective : Projective 0 1 1 (0 : curve.Point) :=
    projective_zero
  simpa [Represent, neutral] using projective

theorem represent_affine
    {x y : Nat}
    {P : curve.Point}
    (x_eq : (x : ZMod modulus) = P.x)
    (y_eq : (y : ZMod modulus) = P.y) :
    Represent { x := x, y := y, z := 1 } P := by
  simpa [Represent, x_eq, y_eq] using projective_affine P

/-- The numbers for the parameters of the curve. -/
structure Parameters
    (curve : EdwardsCurve (ZMod modulus))
    (minusA d : Nat) :
    Prop where
  minusA_eq : (minusA : ZMod modulus) = -curve.a
  d_eq : (d : ZMod modulus) = curve.d

variable
  {minusA d : Nat}
  {base left right : Numbers}
  {P Q : curve.Point}
  (parameters : Parameters curve minusA d)

include parameters

theorem Represent.sum
    (first : left.Represent P)
    (second : right.Represent Q) :
    (left.sum modulus minusA d right).Represent (P + Q) := by
  have cross_le (number : Nat) : number % modulus ≤ modulus :=
    (Nat.mod_lt _ (Nat.Prime.pos Fact.out)).le
  have sum := Projective.sum first second
  unfold Represent Numbers.sum
  simp only [ZMod.natCast_mod, Nat.cast_mul, Nat.cast_add, Nat.cast_pow,
    Nat.cast_sub (cross_le _), ZMod.natCast_self, parameters.minusA_eq,
    parameters.d_eq]
  convert sum using 1 <;> ring

theorem Represent.bit
    {number : Nat}
    (base_represents : base.Represent P)
    (represents : left.Represent (number • P))
    (bit : Bool) :
    (base.bit modulus minusA d left bit).Represent
      ((2 * number + bit.toNat) • P) := by
  have doubled := represents.sum parameters represents
  rw [← add_nsmul, ← two_mul] at doubled
  cases bit with
  | false => exact doubled
  | true =>
    rw [Bool.toNat_true, succ_nsmul]
    exact doubled.sum parameters base_represents

theorem Represent.run
    {number : Nat}
    (base_represents : base.Represent P)
    (represents : left.Represent (number • P))
    (bits : List Bool) :
    (bits.foldl (base.bit modulus minusA d) left).Represent
      (Scalar.climbed bits number • P) := by
  induction bits generalizing left number with
  | nil => exact represents
  | cons bit bits ih =>
    exact ih (base_represents.bit parameters represents bit)

/-- The evaluation along the bits of a number finds the multiple. -/
theorem Represent.multiple
    {number count : Nat}
    (represents : base.Represent P)
    (fits : number < 2 ^ count) :
    (base.multiple modulus minusA d
      (Scalar.highestFirst count number)).Represent (number • P) := by
  have start : neutral.Represent ((0 : Nat) • P) := by
    rw [zero_nsmul]
    exact represent_neutral
  have run :=
    represents.run parameters start (Scalar.highestFirst count number)
  rw [Scalar.climbed_of_lt fits] at run
  exact run

/--
The order of a point is a prime if the multiple by that prime is evaluated as
the neutral point.  The point itself is not neutral, as its first coordinate is
not zero.
-/
theorem Represent.addOrderOf_eq
    {number count : Nat}
    (represents : base.Represent P)
    (isPrime : number.Prime)
    (nonzero : ¬modulus ∣ base.x)
    (fits : number < 2 ^ count)
    (evaluated :
      let reached :=
        base.multiple modulus minusA d (Scalar.highestFirst count number)
      reached.y = reached.z) :
    addOrderOf P = number := by
  have := Fact.mk isPrime
  have vanishes : number • P = 0 :=
    (represents.multiple parameters fits).eq_zero (congrArg Nat.cast evaluated)
  have notNeutral : P ≠ 0 := by
    rintro rfl
    apply nonzero
    rw [← ZMod.natCast_eq_zero_iff, represents.x_eq, Point.zero_x, zero_mul]
  exact addOrderOf_eq_prime vanishes notNeutral

end Numbers

end ModularLadder.EdwardsCurve
