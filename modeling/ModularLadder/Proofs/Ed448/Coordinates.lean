import Mathlib
import ModularLadder.Proofs.Ed448.Curve

/-!
# Projective coordinates on Ed448 in the group of the curve

Projective coordinates `(X : Y : Z)` represent the point `(x, y)` of the curve
if `Z` is not zero, `X = x * Z` and `Y = y * Z`.  Coordinates in Montgomery
form stand for the point that their residues represent.

The denominators in the formulas for sums and doubles are those of the law of
addition up to a power of `Z`.  Hence the formulas hold without exception, and
sums, doubles and negations of coordinates are those of the group, whatever is
left in the temporaries beforehand.
-/

namespace ModularLadder.Ed448

open EdwardsCurve (Solves)
open Field448 (IsForm Proper Residue Room residue)

/-- Projective coordinates of a point of the curve. -/
structure Represents
    (x y z : Residue)
    (P : CurvePoint) :
    Prop where
  z_ne_zero : z ≠ 0
  x_eq : x = P.x * z
  y_eq : y = P.y * z

section

variable
  {x y z x' y' z' : Residue}
  {P Q : CurvePoint}

theorem Represents.projective
    (point : Represents x y z P) :
    EdwardsCurve.Projective x y z P :=
  ⟨point.z_ne_zero, point.x_eq, point.y_eq⟩

/-- The formula for sums. -/
theorem Represents.sum
    (left : Represents x y z P)
    (right : Represents x' y' z' Q) :
    Represents
      (z * z' * ((z * z') ^ 2 - coefficient * (x * x' * (y * y'))) *
        ((x + y) * (x' + y') - x * x' - y * y'))
      (z * z' * ((z * z') ^ 2 + coefficient * (x * x' * (y * y'))) *
        (y * y' - x * x'))
      (((z * z') ^ 2 - coefficient * (x * x' * (y * y'))) *
        ((z * z') ^ 2 + coefficient * (x * x' * (y * y'))))
      (P + Q) := by
  have sum := left.projective.sum right.projective
  rw [curve_a, curve_d, one_mul] at sum
  refine ⟨sum.z_ne_zero, ?_, sum.y_eq⟩
  rw [← sum.x_eq]
  ring

/--
The formula for doubles.  On the curve its denominators are known without the
coefficient.
-/
theorem Represents.double
    (point : Represents x y z P) :
    Represents
      (((x + y) ^ 2 - (x ^ 2 + y ^ 2)) *
        (x ^ 2 + y ^ 2 - (z ^ 2 + z ^ 2)))
      ((x ^ 2 + y ^ 2) * (x ^ 2 - y ^ 2))
      ((x ^ 2 + y ^ 2) * (x ^ 2 + y ^ 2 - (z ^ 2 + z ^ 2)))
      (P + P) := by
  rcases point with ⟨z_ne_zero, rfl, rfl⟩
  have factor : z ^ 2 ≠ 0 := pow_ne_zero 2 z_ne_zero
  have plus := EdwardsCurve.Point.one_add_cross_ne_zero P P
  have minus := EdwardsCurve.Point.one_sub_cross_ne_zero P P
  have x_mul := EdwardsCurve.Point.add_x_mul P P
  have y_mul := EdwardsCurve.Point.add_y_mul P P
  have equation := P.solves
  rw [Solves, curve_a, curve_d] at equation
  rw [curve_a] at y_mul
  have e_eq :
      (P.x * z) ^ 2 + (P.y * z) ^ 2 = z ^ 2 * (1 + P.cross P) := by
    rw [EdwardsCurve.Point.cross, curve_d]
    linear_combination z ^ 2 * equation
  have j_eq :
      z ^ 2 * (1 + P.cross P) - (z ^ 2 + z ^ 2) =
        -(z ^ 2 * (1 - P.cross P)) := by
    ring
  rw [e_eq, j_eq]
  constructor
  · exact mul_ne_zero (mul_ne_zero factor plus)
      (neg_ne_zero.2 (mul_ne_zero factor minus))
  · linear_combination
      z ^ 4 * (1 - P.cross P) * x_mul -
        z ^ 2 * (1 - P.cross P) * e_eq
  · linear_combination z ^ 4 * (1 + P.cross P) * y_mul

theorem Represents.negation
    (point : Represents x y z P) :
    Represents (-x) y z (-P) where
  z_ne_zero := point.z_ne_zero
  x_eq := by
    rw [point.x_eq, EdwardsCurve.Point.neg_x, neg_mul]
  y_eq := point.y_eq

/-- Cross products tell whether coordinates represent the same point. -/
theorem Represents.eq_iff
    (left : Represents x y z P)
    (right : Represents x' y' z' Q) :
    x * z' = x' * z ∧ y * z' = y' * z ↔ P = Q := by
  rcases left with ⟨z_ne_zero, rfl, rfl⟩
  rcases right with ⟨z'_ne_zero, rfl, rfl⟩
  exact EdwardsCurve.Point.cross_products_iff z_ne_zero z'_ne_zero

/-- Coordinates whose ratios solve the equation represent a point. -/
theorem Represents.exists_iff :
    (∃ P : CurvePoint, Represents x y z P) ↔
      z ≠ 0 ∧ Solves 1 coefficient (x / z) (y / z) := by
  constructor
  · rintro ⟨P, z_ne_zero, rfl, rfl⟩
    refine ⟨z_ne_zero, ?_⟩
    rw [mul_div_cancel_right₀ _ z_ne_zero, mul_div_cancel_right₀ _ z_ne_zero]
    exact P.solves
  · rintro ⟨z_ne_zero, solves⟩
    exact
      ⟨{ x := x / z
         y := y / z
         solves := solves },
        z_ne_zero, (div_mul_cancel₀ x z_ne_zero).symm,
        (div_mul_cancel₀ y z_ne_zero).symm⟩

end

/-- Coordinates whose residues represent a point of the curve. -/
structure Coordinates.Stands
    (coordinates : Coordinates)
    (P : CurvePoint) :
    Prop where
  x_proper : Proper coordinates.x
  y_proper : Proper coordinates.y
  z_proper : Proper coordinates.z
  represents :
    Represents (residue coordinates.x) (residue coordinates.y)
      (residue coordinates.z) P

/-- Temporaries with a scratch area that fits, whatever else is left there. -/
def Workplace.room : Room Workplace where
  holds workplace := workplace.scratch.Fits Field448.width
  fits _ fits := fits
  keeps _ _ _ fits := fits

variable
  {context : CurveContext}
  {left right coordinates : Coordinates}
  {P Q : CurvePoint}

theorem Coordinates.stands_of_forms
    {x y z : Residue}
    (x_form : IsForm coordinates.x x)
    (y_form : IsForm coordinates.y y)
    (z_form : IsForm coordinates.z z)
    (represents : Represents x y z P) :
    coordinates.Stands P := by
  refine ⟨x_form.proper, y_form.proper, z_form.proper, ?_⟩
  rw [x_form.residue_eq, y_form.residue_eq, z_form.residue_eq]
  exact represents

/-- Coordinates are exchanged by a truth value. -/
theorem Coordinates.swapIf_ofBool
    (first : left.Stands P)
    (second : right.Stands Q)
    (condition : Bool) :
    left.swapIf right (Choice.ofBool condition) =
      if condition then (right, left) else (left, right) := by
  rw [Coordinates.swapIf, Field448.swapIf_ofBool first.x_proper second.x_proper,
    Field448.swapIf_ofBool first.y_proper second.y_proper,
    Field448.swapIf_ofBool first.z_proper second.z_proper]
  cases condition <;> rfl

namespace CurveContext.Sound

section

variable
  (sound : context.Sound)

include sound

theorem room_fresh :
    Workplace.room.holds (Workplace.fresh context.field) :=
  Field448.fits_ofWidth sound.made

theorem stands_neutral :
    (Coordinates.neutral context.field).Stands 0 := by
  have one := Field448.isForm_ofWord_one sound.made
  apply Coordinates.stands_of_forms (Field448.isForm_zero sound.made) one one
  constructor
  · exact one_ne_zero
  · rw [EdwardsCurve.Point.zero_x, zero_mul]
  · rw [EdwardsCurve.Point.zero_y, one_mul]

/-- Affine coordinates with the denominator one. -/
theorem stands_of_affine
    (x_form : IsForm coordinates.x P.x)
    (y_form : IsForm coordinates.y P.y)
    (z_eq : coordinates.z = context.field.ofWord 1) :
    coordinates.Stands P := by
  have one := Field448.isForm_ofWord_one sound.made
  rw [← z_eq] at one
  apply Coordinates.stands_of_forms x_form y_form one
  exact ⟨one_ne_zero, (mul_one P.x).symm, (mul_one P.y).symm⟩

/-- The check of affine coordinates is the equation of the curve. -/
theorem onCurve
    {x y : Residue}
    (x_form : IsForm coordinates.x x)
    (y_form : IsForm coordinates.y y)
    (z_form : IsForm coordinates.z 1) :
    Workplace.room.Ensures (context.onCurve coordinates) fun answer workplace =>
      answer = Choice.ofBool (decide (Solves 1 coefficient x y)) ∧
        Workplace.room.holds workplace := by
  have made := sound.made
  refine (Field448.square_yields made x_form).bind fun xx xx_form => ?_
  refine (Field448.square_yields made y_form).bind fun yy yy_form => ?_
  refine (Field448.add_yields made xx_form yy_form).bind fun l l_form => ?_
  refine (Field448.multiply_yields made xx_form yy_form).bind fun b b_form => ?_
  refine
    (Field448.multiply_yields made sound.d_form b_form).bind
      fun scaled scaled_form => ?_
  refine (Field448.add_yields made scaled_form z_form).bind fun r r_form => ?_
  refine Room.Ensures.modify_bind Workplace.room (fun _ fits => fits) ?_
  apply Room.Ensures.pure
  intro workplace fits
  refine ⟨?_, fits⟩
  rw [Field448.eq_eq l_form r_form]
  congr 1
  apply decide_eq_decide.2
  rw [Solves]
  constructor <;> intro equation <;> linear_combination equation

/-- The sum stands for the sum, whatever the points are. -/
theorem add
    (first : left.Stands P)
    (second : right.Stands Q) :
    Workplace.room.Ensures (context.add left right) fun sum workplace =>
      sum.Stands (P + Q) ∧ Workplace.room.holds workplace := by
  have made := sound.made
  have x₁ := first.x_proper.isForm
  have y₁ := first.y_proper.isForm
  have z₁ := first.z_proper.isForm
  have x₂ := second.x_proper.isForm
  have y₂ := second.y_proper.isForm
  have z₂ := second.z_proper.isForm
  refine (Field448.multiply_yields made z₁ z₂).bind fun _ a => ?_
  refine (Field448.square_yields made a).bind fun _ b => ?_
  refine (Field448.multiply_yields made x₁ x₂).bind fun _ c => ?_
  refine (Field448.multiply_yields made y₁ y₂).bind fun _ d => ?_
  refine (Field448.multiply_yields made c d).bind fun _ cd => ?_
  refine (Field448.multiply_yields made sound.d_form cd).bind fun _ e => ?_
  refine (Field448.sub_yields made b e).bind fun _ f => ?_
  refine (Field448.addInPlace_yields made b e).bind fun _ g => ?_
  refine (Field448.add_yields made x₁ y₁).bind fun _ leftSum => ?_
  refine (Field448.add_yields made x₂ y₂).bind fun _ rightSum => ?_
  refine (Field448.multiply_yields made leftSum rightSum).bind fun _ h => ?_
  refine (Field448.subInPlace_yields made h c).bind fun _ mixed => ?_
  refine (Field448.subInPlace_yields made mixed d).bind fun _ mixed => ?_
  refine (Field448.multiply_yields made a f).bind fun _ af => ?_
  refine (Field448.multiply_yields made af mixed).bind fun _ x => ?_
  refine (Field448.sub_yields made d c).bind fun _ straight => ?_
  refine (Field448.multiply_yields made a g).bind fun _ ag => ?_
  refine (Field448.multiply_yields made ag straight).bind fun _ y => ?_
  refine (Field448.multiply_yields made f g).bind fun _ z => ?_
  refine Room.Ensures.modify_bind Workplace.room (fun _ fits => fits) ?_
  apply Room.Ensures.pure
  intro workplace fits
  refine ⟨Coordinates.stands_of_forms x y z ?_, fits⟩
  exact first.represents.sum second.represents

/-- The double stands for the sum of the point with itself. -/
theorem double
    (stands : coordinates.Stands P) :
    Workplace.room.Ensures (context.double coordinates) fun double workplace =>
      double.Stands (P + P) ∧ Workplace.room.holds workplace := by
  have made := sound.made
  have x := stands.x_proper.isForm
  have y := stands.y_proper.isForm
  have z := stands.z_proper.isForm
  refine (Field448.add_yields made x y).bind fun _ sum => ?_
  refine (Field448.square_yields made sum).bind fun _ b => ?_
  refine (Field448.square_yields made x).bind fun _ c => ?_
  refine (Field448.square_yields made y).bind fun _ d => ?_
  refine (Field448.add_yields made c d).bind fun _ e => ?_
  refine (Field448.square_yields made z).bind fun _ zz => ?_
  refine (Field448.add_yields made zz zz).bind fun _ twiceZz => ?_
  refine (Field448.sub_yields made e twiceZz).bind fun _ j => ?_
  refine (Field448.sub_yields made b e).bind fun _ mixed => ?_
  refine (Field448.multiply_yields made mixed j).bind fun _ x₂ => ?_
  refine (Field448.sub_yields made c d).bind fun _ straight => ?_
  refine (Field448.multiply_yields made e straight).bind fun _ y₂ => ?_
  refine (Field448.multiply_yields made e j).bind fun _ z₂ => ?_
  refine Room.Ensures.modify_bind Workplace.room (fun _ fits => fits) ?_
  apply Room.Ensures.pure
  intro workplace fits
  refine ⟨Coordinates.stands_of_forms x₂ y₂ z₂ ?_, fits⟩
  exact stands.represents.double

/-- The negation stands for the opposite point. -/
theorem neg
    (stands : coordinates.Stands P) :
    Workplace.room.Ensures (context.neg coordinates) fun negation workplace =>
      negation.Stands (-P) ∧ Workplace.room.holds workplace := by
  have x := Field448.isForm_neg sound.made stands.x_proper.isForm
  have y := stands.y_proper.isForm
  have z := stands.z_proper.isForm
  refine Room.Ensures.modify_bind Workplace.room (fun _ fits => fits) ?_
  apply Room.Ensures.pure
  intro workplace fits
  refine ⟨Coordinates.stands_of_forms x y z ?_, fits⟩
  exact stands.represents.negation

end

end CurveContext.Sound

end ModularLadder.Ed448
