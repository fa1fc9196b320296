import Mathlib
import ModularLadder.Proofs.LadderReading

/-!
# The ladder and the group of a Montgomery curve

The points of `y^2 = x^3 + A * x^2 + x` over a field form an abelian group.
A fraction `X / Z` represents a point if it is its x-coordinate, or if `Z` is
zero and `X` is not for the point at infinity.

A step of the ladder doubles the point that its lower rung represents.  It
adds the two points if their difference is the base point and the base point
is not the one of order two: the product of the x-coordinates of a sum and a
difference of points is a rational function of the x-coordinates of these
points, and each of the points may be at infinity as well.  So a step respects
the representation of points, and the ladder finds multiples in the group.
-/

namespace ModularLadder.MontgomeryCurve

open ExactLadder (Reading)
open WeierstrassCurve.Affine (Point)

/-! ## The curve and its equation -/

section

variable
  {K : Type*}
  [Field K]

/-- The curve with a given coefficient. -/
def curve (A : K) : WeierstrassCurve.Affine K :=
  { a₁ := 0
    a₂ := A
    a₃ := 0
    a₄ := 1
    a₆ := 0 }

/-- The curve has no singular point. -/
structure Smooth (A : K) : Prop where
  two_ne_zero : (2 : K) ≠ 0
  square_ne_four : A ^ 2 ≠ 4

section

variable
  (p : Nat)
  [Fact p.Prime]
  [Algebra (ZMod p) K]

/-- Numbers that are not multiples of the characteristic do not vanish. -/
theorem natCast_ne_zero
    {number : Nat}
    (coprime : ¬p ∣ number) :
    (number : K) ≠ 0 := by
  rw [← map_natCast (algebraMap (ZMod p) K), map_ne_zero, ne_eq,
    ZMod.natCast_eq_zero_iff]
  exact coprime

/-- A number as the coefficient, told by divisions only. -/
theorem smooth_natCast
    {coefficient : Nat}
    (odd : ¬p ∣ 2)
    (large : 2 ≤ coefficient)
    (coprime : ¬p ∣ coefficient ^ 2 - 4) :
    Smooth (coefficient : K) := by
  constructor
  · exact_mod_cast natCast_ne_zero (K := K) p odd
  · intro square
    have least : 4 ≤ coefficient ^ 2 := Nat.pow_le_pow_left large 2
    apply natCast_ne_zero (K := K) p coprime
    rw [Nat.cast_sub least, Nat.cast_pow, square, Nat.cast_ofNat, sub_self]

end

variable
  {A : K}

theorem equation_iff
    (x y : K) :
    (curve A).Equation x y ↔ y ^ 2 = x ^ 3 + A * x ^ 2 + x := by
  rw [WeierstrassCurve.Affine.equation_iff]
  simp [curve]

theorem negY_eq
    (x y : K) :
    (curve A).negY x y = -y := by
  simp [WeierstrassCurve.Affine.negY, curve]

theorem discriminant_eq :
    (curve A).Δ = 16 * (A ^ 2 - 4) := by
  simp only [WeierstrassCurve.Δ, WeierstrassCurve.b₂, WeierstrassCurve.b₄,
    WeierstrassCurve.b₆, WeierstrassCurve.b₈, curve]
  ring

theorem Smooth.four_ne_zero
    (smooth : Smooth A) :
    (4 : K) ≠ 0 := by
  have square : (4 : K) = 2 ^ 2 := by norm_num
  rw [square]
  exact pow_ne_zero 2 smooth.two_ne_zero

/-- Every solution of the equation is a point. -/
theorem Smooth.nonsingular
    (smooth : Smooth A)
    {x y : K}
    (equation : y ^ 2 = x ^ 3 + A * x ^ 2 + x) :
    (curve A).Nonsingular x y := by
  have discriminant : (curve A).Δ ≠ 0 := by
    rw [discriminant_eq]
    have sixteen : (16 : K) = 4 ^ 2 := by norm_num
    rw [sixteen]
    exact
      mul_ne_zero (pow_ne_zero 2 smooth.four_ne_zero)
        (sub_ne_zero.2 smooth.square_ne_four)
  rw [← WeierstrassCurve.Affine.equation_iff_nonsingular_of_Δ_ne_zero
    discriminant, equation_iff]
  exact equation

/-- Every number is the x-coordinate of a point over a large enough field. -/
theorem Smooth.exists_nonsingular
    [IsAlgClosed K]
    (smooth : Smooth A)
    (x : K) :
    ∃ y, (curve A).Nonsingular x y := by
  rcases IsAlgClosed.exists_pow_nat_eq (x ^ 3 + A * x ^ 2 + x) two_pos with
    ⟨y, equation⟩
  exact ⟨y, smooth.nonsingular equation⟩

theorem equation_of_nonsingular
    {x y : K}
    (nonsingular : (curve A).Nonsingular x y) :
    y ^ 2 = x ^ 3 + A * x ^ 2 + x :=
  (equation_iff x y).1 nonsingular.1

/-! ## Fractions that represent points -/

/-- A fraction is the x-coordinate of a point, which may be at infinity. -/
def Represents (X Z : K) : (curve A).Point → Prop
  | .zero => X ≠ 0 ∧ Z = 0
  | .some x _ _ => X = x * Z ∧ Z ≠ 0

variable
  {X Z : K}
  {P Q : (curve A).Point}

/-- A point is at infinity exactly if the denominator is zero. -/
theorem Represents.eq_zero_iff
    (represents : Represents X Z P) :
    P = 0 ↔ Z = 0 := by
  cases P with
  | zero => exact iff_of_true rfl represents.2
  | some x y h =>
    exact iff_of_false (Point.some_ne_zero h) represents.2

/-- Numerator and denominator of a point are not zero both. -/
theorem Represents.not_both_zero
    (represents : Represents X Z P) :
    ¬(X = 0 ∧ Z = 0) := by
  rintro ⟨numerator, denominator⟩
  cases P with
  | zero => exact represents.1 numerator
  | some x y h => exact represents.2 denominator

/-- A point and its negation have the same x-coordinate. -/
theorem represents_neg :
    Represents X Z (-P) ↔ Represents X Z P := by
  cases P with
  | zero => rfl
  | some x y h => rfl

/-- A point of order two has another x-coordinate than plus or minus one. -/
theorem Smooth.square_ne_one
    (smooth : Smooth A)
    {x : K}
    (equation : 0 = x ^ 3 + A * x ^ 2 + x) :
    x ^ 2 ≠ 1 := by
  intro square
  apply smooth.square_ne_four
  have coefficient : A = -(2 * x) := by
    linear_combination -equation - (x + A) * square
  rw [coefficient]
  linear_combination 4 * square

/-! ## The law of addition -/

variable
  [DecidableEq K]
  {x₁ y₁ x₂ y₂ : K}

/-- The x-coordinate of a sum, up to the denominator of the slope. -/
theorem add_of_ne
    (h₁ : (curve A).Nonsingular x₁ y₁)
    (h₂ : (curve A).Nonsingular x₂ y₂)
    (ne : x₁ ≠ x₂) :
    ∃ x y h, Point.some x₁ y₁ h₁ + Point.some x₂ y₂ h₂ = Point.some x y h ∧
      x * (x₁ - x₂) ^ 2 =
        (y₁ - y₂) ^ 2 - (A + x₁ + x₂) * (x₁ - x₂) ^ 2 := by
  have denominator : x₁ - x₂ ≠ 0 := sub_ne_zero.2 ne
  refine ⟨_, _, _, Point.add_of_X_ne ne, ?_⟩
  rw [WeierstrassCurve.Affine.slope_of_X_ne ne, WeierstrassCurve.Affine.addX]
  simp only [curve]
  field_simp
  ring

omit [DecidableEq K] in
/-- The third point on a line, and its ordinate's opposite. -/
theorem add_eq_of_slope
    {x₃ y₃ slope : K}
    (abscissa : x₃ = slope ^ 2 - A - x₁ - x₂)
    (ordinate : y₃ = -(slope * (x₃ - x₁) + y₁)) :
    (curve A).addX x₁ x₂ slope = x₃ ∧
      (curve A).addY x₁ x₂ y₁ slope = y₃ := by
  have sumX : (curve A).addX x₁ x₂ slope = x₃ := by
    rw [abscissa, WeierstrassCurve.Affine.addX]
    simp only [curve]
    ring
  refine ⟨sumX, ?_⟩
  rw [WeierstrassCurve.Affine.addY, WeierstrassCurve.Affine.negAddY, negY_eq,
    sumX, ordinate]

/-- The sum of two points, by the slope of the line through them. -/
theorem add_of_chord
    {x₃ y₃ slope : K}
    (h₁ : (curve A).Nonsingular x₁ y₁)
    (h₂ : (curve A).Nonsingular x₂ y₂)
    (h₃ : (curve A).Nonsingular x₃ y₃)
    (ne : x₁ ≠ x₂)
    (chord : slope * (x₁ - x₂) = y₁ - y₂)
    (abscissa : x₃ = slope ^ 2 - A - x₁ - x₂)
    (ordinate : y₃ = -(slope * (x₃ - x₁) + y₁)) :
    Point.some x₁ y₁ h₁ + Point.some x₂ y₂ h₂ = Point.some x₃ y₃ h₃ := by
  have quotient : (curve A).slope x₁ x₂ y₁ y₂ = slope := by
    rw [WeierstrassCurve.Affine.slope_of_X_ne ne,
      div_eq_iff (sub_ne_zero.2 ne), chord]
  rw [Point.add_of_X_ne ne, Point.some.injEq, quotient]
  exact add_eq_of_slope abscissa ordinate

/-- The double of a point, by the slope of the tangent. -/
theorem double_of_tangent
    {x₃ y₃ slope : K}
    (h₁ : (curve A).Nonsingular x₁ y₁)
    (h₃ : (curve A).Nonsingular x₃ y₃)
    (ne : 2 * y₁ ≠ 0)
    (tangent : slope * (2 * y₁) = 3 * x₁ ^ 2 + 2 * A * x₁ + 1)
    (abscissa : x₃ = slope ^ 2 - A - x₁ - x₁)
    (ordinate : y₃ = -(slope * (x₃ - x₁) + y₁)) :
    Point.some x₁ y₁ h₁ + Point.some x₁ y₁ h₁ = Point.some x₃ y₃ h₃ := by
  have doubled : y₁ - (curve A).negY x₁ y₁ = 2 * y₁ := by
    rw [negY_eq]
    ring
  have slopeDefined : y₁ ≠ (curve A).negY x₁ y₁ := by
    rw [← sub_ne_zero, doubled]
    exact ne
  have quotient : (curve A).slope x₁ x₁ y₁ y₁ = slope := by
    rw [WeierstrassCurve.Affine.slope_of_Y_ne rfl slopeDefined, doubled,
      div_eq_iff ne, tangent]
    simp only [curve]
    ring
  rw [Point.add_self_of_Y_ne slopeDefined, Point.some.injEq, quotient]
  exact add_eq_of_slope abscissa ordinate

/-! ## Doubling a fraction -/

/-- A point with y-coordinate zero is its own opposite. -/
theorem double_of_eq_zero
    (h₁ : (curve A).Nonsingular x₁ y₁)
    (zero : y₁ = 0) :
    Point.some x₁ y₁ h₁ + Point.some x₁ y₁ h₁ = 0 := by
  apply Point.add_self_of_Y_eq
  rw [negY_eq, zero, neg_zero]

/-- The x-coordinate of a double, up to the denominator of the slope. -/
theorem double_of_ne_zero
    (smooth : Smooth A)
    (h₁ : (curve A).Nonsingular x₁ y₁)
    (ne : y₁ ≠ 0) :
    ∃ x y h, Point.some x₁ y₁ h₁ + Point.some x₁ y₁ h₁ = Point.some x y h ∧
      x * (2 * y₁) ^ 2 = (x₁ ^ 2 - 1) ^ 2 := by
  have denominator : 2 * y₁ ≠ 0 := mul_ne_zero smooth.two_ne_zero ne
  have slopeDefined : y₁ ≠ (curve A).negY x₁ y₁ := by
    rw [negY_eq]
    intro same
    apply denominator
    rw [two_mul]
    nth_rewrite 1 [same]
    exact neg_add_cancel y₁
  refine ⟨_, _, _, Point.add_self_of_Y_ne slopeDefined, ?_⟩
  have equation := equation_of_nonsingular h₁
  rw [WeierstrassCurve.Affine.slope_of_Y_ne rfl slopeDefined,
    WeierstrassCurve.Affine.addX, negY_eq]
  have doubled : y₁ - -y₁ = 2 * y₁ := by ring
  rw [doubled]
  simp only [curve]
  have cleared (slope : K) :
      ((slope / (2 * y₁)) ^ 2 + 0 * (slope / (2 * y₁)) - A - x₁ - x₁) *
          (2 * y₁) ^ 2 =
        slope ^ 2 - (A + 2 * x₁) * (2 * y₁) ^ 2 := by
    have square : (slope / (2 * y₁)) ^ 2 * (2 * y₁) ^ 2 = slope ^ 2 := by
      rw [div_pow, div_mul_cancel₀ _ (pow_ne_zero 2 denominator)]
    linear_combination square
  rw [cleared]
  linear_combination (-4 * (A + 2 * x₁)) * equation

/-- Coordinates of the double of the point that a fraction represents. -/
theorem Represents.double
    (smooth : Smooth A)
    (represents : Represents X Z P) :
    Represents ((X ^ 2 - Z ^ 2) ^ 2)
      (4 * X * Z * (X ^ 2 + A * X * Z + Z ^ 2)) (P + P) := by
  cases P with
  | zero =>
    rcases represents with ⟨nonzero, zero⟩
    constructor
    · have power : (X ^ 2 - Z ^ 2) ^ 2 = X ^ 4 := by
        rw [zero]
        ring
      rw [power]
      exact pow_ne_zero 4 nonzero
    · rw [zero]
      ring
  | some x y h =>
    rcases represents with ⟨numerator, nonzero⟩
    have equation := equation_of_nonsingular h
    have denominator :
        4 * X * Z * (X ^ 2 + A * X * Z + Z ^ 2) = (2 * y) ^ 2 * Z ^ 4 := by
      rw [numerator]
      linear_combination (-4 * Z ^ 4) * equation
    rw [denominator]
    by_cases order : y = 0
    · have power : (X ^ 2 - Z ^ 2) ^ 2 = (x ^ 2 - 1) ^ 2 * Z ^ 4 := by
        rw [numerator]
        ring
      rw [double_of_eq_zero h order]
      rw [order, zero_pow two_ne_zero] at equation
      constructor
      · rw [power]
        exact
          mul_ne_zero
            (pow_ne_zero 2 (sub_ne_zero.2 (smooth.square_ne_one equation)))
            (pow_ne_zero 4 nonzero)
      · rw [order]
        ring
    · rcases double_of_ne_zero smooth h order with ⟨x', y', h', sum, coordinate⟩
      rw [sum]
      constructor
      · rw [numerator]
        linear_combination (-Z ^ 4) * coordinate
      · exact
          mul_ne_zero (pow_ne_zero 2 (mul_ne_zero smooth.two_ne_zero order))
            (pow_ne_zero 4 nonzero)

/-! ## Adding points of a known difference -/

/-- The x-coordinates of the sum and the difference of two points. -/
theorem sum_mul_difference
    (h₁ : (curve A).Nonsingular x₁ y₁)
    (h₂ : (curve A).Nonsingular x₂ y₂)
    (ne : x₁ ≠ x₂) :
    ∃ x y h x' y' h',
      Point.some x₁ y₁ h₁ + Point.some x₂ y₂ h₂ = Point.some x y h ∧
        Point.some x₁ y₁ h₁ - Point.some x₂ y₂ h₂ = Point.some x' y' h' ∧
        x * x' * (x₁ - x₂) ^ 2 = (x₁ * x₂ - 1) ^ 2 := by
  have opposite : (curve A).Nonsingular x₂ ((curve A).negY x₂ y₂) :=
    (WeierstrassCurve.Affine.nonsingular_neg ..).2 h₂
  rcases add_of_ne h₁ h₂ ne with ⟨x, y, h, sum, first⟩
  rcases add_of_ne h₁ opposite ne with ⟨x', y', h', difference, second⟩
  refine ⟨x, y, h, x', y', h', sum, ?_, ?_⟩
  · rw [sub_eq_add_neg, Point.neg_some]
    exact difference
  · have equation₁ := equation_of_nonsingular h₁
    have equation₂ := equation_of_nonsingular h₂
    rw [negY_eq] at second
    have denominator : (x₁ - x₂) ^ 2 ≠ 0 :=
      pow_ne_zero 2 (sub_ne_zero.2 ne)
    apply mul_right_cancel₀ denominator
    calc
      x * x' * (x₁ - x₂) ^ 2 * (x₁ - x₂) ^ 2 =
          (x * (x₁ - x₂) ^ 2) * (x' * (x₁ - x₂) ^ 2) := by
        ring
      _ = ((y₁ - y₂) ^ 2 - (A + x₁ + x₂) * (x₁ - x₂) ^ 2) *
            ((y₁ - -y₂) ^ 2 - (A + x₁ + x₂) * (x₁ - x₂) ^ 2) := by
        rw [first, second]
      _ = (y₁ ^ 2 - y₂ ^ 2) ^ 2 -
            2 * (A + x₁ + x₂) * (x₁ - x₂) ^ 2 * (y₁ ^ 2 + y₂ ^ 2) +
            (A + x₁ + x₂) ^ 2 * (x₁ - x₂) ^ 4 := by
        ring
      _ = (x₁ * x₂ - 1) ^ 2 * (x₁ - x₂) ^ 2 := by
        rw [equation₁, equation₂]
        ring

section

variable
  {x y : K}
  {h : (curve A).Nonsingular x y}
  {x₃ y₃ X₂ Z₂ X₃ Z₃ : K}

/-- Opposite points whose difference is not of order two. -/
theorem Smooth.square_ne_one_of_opposite
    (smooth : Smooth A)
    (h₂ : (curve A).Nonsingular x₂ y₂)
    (nonzero : x ≠ 0)
    (difference : -Point.some x₂ y₂ h₂ =
      Point.some x₂ y₂ h₂ + Point.some x y h) :
    x₂ ^ 2 ≠ 1 := by
  have doubled :
      Point.some x₂ y₂ h₂ + Point.some x₂ y₂ h₂ = -Point.some x y h := by
    rw [eq_neg_iff_add_eq_zero, add_assoc, ← difference, add_neg_cancel]
  by_cases order : y₂ = 0
  · rw [double_of_eq_zero h₂ order, eq_comm, neg_eq_zero] at doubled
    exact absurd doubled (Point.some_ne_zero h)
  · rcases double_of_ne_zero smooth h₂ order with ⟨x', y', h', sum, coordinate⟩
    rw [sum, Point.neg_some, Point.some.injEq] at doubled
    rw [doubled.1] at coordinate
    intro square
    have exponent : 2 ≠ 0 := by decide
    rw [square, sub_self, zero_pow exponent, mul_eq_zero] at coordinate
    rcases coordinate with zero | zero
    · exact nonzero zero
    · exact
        pow_ne_zero 2 (mul_ne_zero smooth.two_ne_zero order) zero

/-- The sum of opposite points, whose difference is the base point. -/
theorem Smooth.represents_sum_of_opposite
    (smooth : Smooth A)
    (h₂ : (curve A).Nonsingular x₂ y₂)
    (nonzero : x ≠ 0)
    (difference : -Point.some x₂ y₂ h₂ =
      Point.some x₂ y₂ h₂ + Point.some x y h)
    (product : Z₂ * Z₃ ≠ 0) :
    Represents (4 * (x₂ * Z₂ * (x₂ * Z₃) - Z₂ * Z₃) ^ 2)
      (4 * x * (x₂ * Z₃ * Z₂ - x₂ * Z₂ * Z₃) ^ 2) (0 : (curve A).Point) := by
  have square := smooth.square_ne_one_of_opposite h₂ nonzero difference
  constructor
  · have power :
        4 * (x₂ * Z₂ * (x₂ * Z₃) - Z₂ * Z₃) ^ 2 =
          4 * ((x₂ ^ 2 - 1) * (Z₂ * Z₃)) ^ 2 := by
      ring
    rw [power]
    exact
      mul_ne_zero smooth.four_ne_zero
        (pow_ne_zero 2 (mul_ne_zero (sub_ne_zero.2 square) product))
  · ring

/-- The sum of points of different x-coordinates. -/
theorem Smooth.represents_sum_of_ne
    (smooth : Smooth A)
    (h₂ : (curve A).Nonsingular x₂ y₂)
    (h₃ : (curve A).Nonsingular x₃ y₃)
    (nonzero : x ≠ 0)
    (ne : x₃ ≠ x₂)
    (difference : Point.some x₃ y₃ h₃ =
      Point.some x₂ y₂ h₂ + Point.some x y h)
    (product : Z₂ * Z₃ ≠ 0) :
    Represents (4 * (x₂ * Z₂ * (x₃ * Z₃) - Z₂ * Z₃) ^ 2)
      (4 * x * (x₃ * Z₃ * Z₂ - x₂ * Z₂ * Z₃) ^ 2)
      (Point.some x₂ y₂ h₂ + Point.some x₃ y₃ h₃) := by
  rcases sum_mul_difference h₃ h₂ ne with
    ⟨xs, ys, hs, xd, yd, hd, sum, minus, coordinate⟩
  have base : Point.some xd yd hd = Point.some x y h := by
    rw [← minus, difference, add_sub_cancel_left]
  rw [Point.some.injEq] at base
  rw [base.1] at coordinate
  rw [add_comm, sum]
  constructor
  · linear_combination (-4 * (Z₂ * Z₃) ^ 2) * coordinate
  · have factor :
        x₃ * Z₃ * Z₂ - x₂ * Z₂ * Z₃ = (x₃ - x₂) * (Z₂ * Z₃) := by
      ring
    rw [factor]
    exact
      mul_ne_zero (mul_ne_zero smooth.four_ne_zero nonzero)
        (pow_ne_zero 2 (mul_ne_zero (sub_ne_zero.2 ne) product))

/--
Coordinates of the sum of two points whose difference is known.  The points are
not equal, since their difference is not at infinity.
-/
theorem Represents.sum
    (smooth : Smooth A)
    (nonzero : x ≠ 0)
    (first : Represents X₂ Z₂ P)
    (second : Represents X₃ Z₃ Q)
    (difference : Q = P + Point.some x y h) :
    Represents (4 * (X₂ * X₃ - Z₂ * Z₃) ^ 2)
      (4 * x * (X₃ * Z₂ - X₂ * Z₃) ^ 2) (P + Q) := by
  have scaled {number : K} (ne : number ≠ 0) : 4 * x * number ^ 2 ≠ 0 :=
    mul_ne_zero (mul_ne_zero smooth.four_ne_zero nonzero) (pow_ne_zero 2 ne)
  cases P with
  | zero =>
    rcases first with ⟨numerator, denominator⟩
    rw [← Point.zero_def, zero_add] at difference ⊢
    rw [difference] at second ⊢
    rcases second with ⟨base, baseDenominator⟩
    constructor
    · rw [base, denominator]
      ring
    · apply scaled
      rw [denominator, mul_zero, zero_sub]
      exact neg_ne_zero.2 (mul_ne_zero numerator baseDenominator)
  | some x₂ y₂ h₂ =>
    cases Q with
    | zero =>
      rcases second with ⟨numerator, denominator⟩
      rw [← Point.zero_def] at difference ⊢
      have opposite := eq_neg_of_add_eq_zero_left difference.symm
      rw [opposite] at first ⊢
      rcases represents_neg.1 first with ⟨base, baseDenominator⟩
      rw [add_zero, represents_neg]
      constructor
      · rw [base, denominator]
        ring
      · apply scaled
        rw [denominator, mul_zero, sub_zero]
        exact mul_ne_zero numerator baseDenominator
    | some x₃ y₃ h₃ =>
      rcases first with ⟨numerator₂, denominator₂⟩
      rcases second with ⟨numerator₃, denominator₃⟩
      have product : Z₂ * Z₃ ≠ 0 := mul_ne_zero denominator₂ denominator₃
      rw [numerator₂, numerator₃]
      by_cases same : x₃ = x₂
      · rcases Point.X_eq_iff.1 same with equal | opposite
        · rw [equal, left_eq_add] at difference
          exact absurd difference (Point.some_ne_zero h)
        · rw [opposite] at difference ⊢
          rw [same, add_neg_cancel]
          exact
            smooth.represents_sum_of_opposite h₂ nonzero difference product
      · exact
          smooth.represents_sum_of_ne h₂ h₃ nonzero same difference product

end

/-! ## The ladder -/

/-- The point with x-coordinate zero is of order two. -/
theorem nsmul_of_order_two
    {y : K}
    (h : (curve A).Nonsingular 0 y)
    (n : Nat) :
    n • Point.some 0 y h = if n % 2 = 1 then Point.some 0 y h else 0 := by
  have zero : y = 0 := by
    have equation := equation_of_nonsingular h
    rw [← sq_eq_zero_iff, equation]
    ring
  have doubled : 2 • Point.some 0 y h = 0 := by
    rw [two_nsmul]
    exact double_of_eq_zero h zero
  have split : n • Point.some 0 y h = (n % 2) • Point.some 0 y h := by
    nth_rewrite 1 [← Nat.mod_add_div n 2]
    rw [add_nsmul, mul_comm, mul_nsmul', doubled, nsmul_zero, add_zero]
  rw [split]
  rcases Nat.mod_two_eq_zero_or_one n with even | odd
  · rw [even, zero_nsmul, if_neg (by decide)]
  · rw [odd, one_nsmul, if_pos rfl]

/-- Fractions that represent points are respected by the steps. -/
theorem Smooth.reading
    (smooth : Smooth A)
    {x y : K}
    {h : (curve A).Nonsingular x y}
    (nonzero : x ≠ 0) :
    Reading A x Represents (Point.some x y h) where
  infinity := ⟨one_ne_zero, rfl⟩
  affine := ⟨(mul_one x).symm, one_ne_zero⟩
  double represents := represents.double smooth
  sum first second difference := first.sum smooth nonzero second difference

/-- The ladder finds the multiple by the number that the bits write. -/
theorem ladder_represents
    {a24 x y : K}
    {h : (curve A).Nonsingular x y}
    (smooth : Smooth A)
    (constant : 4 * a24 = A - 2)
    (nonzero : x ≠ 0)
    (bits : List Bool) :
    Represents (ExactLadder.ladder a24 x bits).x2
      (ExactLadder.ladder a24 x bits).z2
      (Scalar.climbed bits 0 • Point.some x y h) :=
  (smooth.reading nonzero).ladder constant bits

end

end ModularLadder.MontgomeryCurve
