import Mathlib
import ModularLadder.Proofs.EdwardsGroup

/-!
# The isogeny from an Edwards to a Montgomery curve

A point `(x, y)` of an Edwards curve goes to a point with the abscissa
`y^2 / (a * x^2)` on the Montgomery curve with the coefficient
`A = 2 - 4 * d / a`.  Both points with `x = 0` go to infinity, and the points
with `y = 0` to the one of order two.  Other than the abscissas nothing has to
be known of the images to see that multiples go to multiples.

The abscissas are read as fractions by the ladder.  Its formulas for a double
and for a sum, applied to the squares of Edwards coordinates, are those of the
complete law of addition, squared: in a sum the product of the numerators of
the sum and of the known difference appears, and the latter cancels.  So the
ladder that finds the multiple of a point finds that of its image as well.
-/

namespace ModularLadder.EdwardsCurve

open ExactLadder (Reading)
open MontgomeryCurve (Represents Smooth)

section

variable
  {L : Type*}
  [Field L]
  {a d A u x y x₁ y₁ x₂ y₂ x₃ y₃ X Z X₂ Z₂ X₃ Z₃ : L}

/-! ## Ratios of squares -/

/-- The fraction is the quotient `y^2 / (a * x^2)`, which may be infinite. -/
def SquareRatio (a X Z x y : L) : Prop :=
  ∃ factor, factor ≠ 0 ∧ X = factor * y ^ 2 ∧ Z = factor * (a * x ^ 2)

/-- The coefficient of the Montgomery curve that the isogeny leads to. -/
structure IsogenyCoefficient (a d A : L) : Prop where
  equation : a * (A - 2) = -(4 * d)

theorem IsogenyCoefficient.smooth
    (coefficient : IsogenyCoefficient a d A)
    (two_ne_zero : (2 : L) ≠ 0)
    (d_ne_zero : d ≠ 0)
    (a_sub_d_ne_zero : a - d ≠ 0) :
    Smooth A where
  two_ne_zero := two_ne_zero
  square_ne_four := by
    intro square
    have zero : 2 ^ 4 * (d * (a - d)) = 0 := by
      linear_combination
        (-a ^ 2) * square +
          (a * (A - 2) + 4 * a - 4 * d) * coefficient.equation
    exact
      mul_ne_zero (pow_ne_zero 4 two_ne_zero)
        (mul_ne_zero d_ne_zero a_sub_d_ne_zero) zero

/-- The ratio of a double. -/
theorem SquareRatio.double
    (ratio : SquareRatio a X Z x y)
    (coefficient : IsogenyCoefficient a d A)
    (solves : Solves a d x y)
    (sum : IsSum a d x y x y x₃ y₃) :
    SquareRatio a ((X ^ 2 - Z ^ 2) ^ 2)
      (4 * X * Z * (X ^ 2 + A * X * Z + Z ^ 2)) x₃ y₃ := by
  rcases ratio with ⟨factor, nonzero, rfl, rfl⟩
  rw [Solves] at solves
  have plus : y ^ 2 + a * x ^ 2 = 1 + d * x * x * y * y := by
    linear_combination solves
  have minus :
      (y ^ 2 + a * x ^ 2) ^ 2 + a * (A - 2) * (x ^ 2 * y ^ 2) =
        (1 - d * x * x * y * y) ^ 2 := by
    rw [plus, coefficient.equation]
    ring
  have numerator : y ^ 2 - a * x ^ 2 = y₃ * (1 - d * x * x * y * y) := by
    linear_combination -sum.y_eq
  have denominator : 2 * x * y = x₃ * (1 + d * x * x * y * y) := by
    linear_combination -sum.x_eq
  refine
    ⟨factor ^ 4 *
      ((1 - d * x * x * y * y) * (1 + d * x * x * y * y)) ^ 2, ?_, ?_, ?_⟩
  · exact
      mul_ne_zero (pow_ne_zero 4 nonzero)
        (pow_ne_zero 2 (mul_ne_zero sum.minus_ne_zero sum.plus_ne_zero))
  · calc
      _ = factor ^ 4 *
            ((y ^ 2 - a * x ^ 2) * (y ^ 2 + a * x ^ 2)) ^ 2 := by
        ring
      _ = _ := by
        rw [numerator, plus]
        ring
  · calc
      _ = factor ^ 4 * (a * (2 * x * y) ^ 2 *
            ((y ^ 2 + a * x ^ 2) ^ 2 + a * (A - 2) * (x ^ 2 * y ^ 2))) := by
        ring
      _ = _ := by
        rw [minus, denominator]
        ring

/--
The ratio of a sum, if that of the difference is neither zero nor infinite.
The denominators of the difference are those of the sum, exchanged.
-/
theorem SquareRatio.sum
    (first : SquareRatio a X₂ Z₂ x₁ y₁)
    (second : SquareRatio a X₃ Z₃ x₂ y₂)
    (two_ne_zero : (2 : L) ≠ 0)
    (abscissa : u * (a * x ^ 2) = y ^ 2)
    (y_ne_zero : y ≠ 0)
    (sum : IsSum a d x₁ y₁ x₂ y₂ x₃ y₃)
    (difference : IsSum a d x₂ y₂ (-x₁) y₁ x y) :
    SquareRatio a (4 * (X₂ * X₃ - Z₂ * Z₃) ^ 2)
      (4 * u * (X₃ * Z₂ - X₂ * Z₃) ^ 2) x₃ y₃ := by
  rcases first with ⟨left, left_ne_zero, rfl, rfl⟩
  rcases second with ⟨right, right_ne_zero, rfl, rfl⟩
  have plus := sum.plus_ne_zero
  have minus := sum.minus_ne_zero
  have x_sum := sum.x_eq
  have y_sum := sum.y_eq
  have x_difference :
      x * (1 - d * x₁ * x₂ * y₁ * y₂) = x₂ * y₁ - x₁ * y₂ := by
    linear_combination difference.x_eq
  have y_difference :
      y * (1 + d * x₁ * x₂ * y₁ * y₂) = y₁ * y₂ + a * x₁ * x₂ := by
    linear_combination difference.y_eq
  refine
    ⟨(2 * left * right *
      ((1 + d * x₁ * x₂ * y₁ * y₂) * (1 - d * x₁ * x₂ * y₁ * y₂)) * y) ^ 2,
      ?_, ?_, ?_⟩
  · exact
      pow_ne_zero 2
        (mul_ne_zero
          (mul_ne_zero
            (mul_ne_zero (mul_ne_zero two_ne_zero left_ne_zero) right_ne_zero)
            (mul_ne_zero plus minus))
          y_ne_zero)
  · calc
      _ = (2 * left * right * ((y₁ * y₂ + a * x₁ * x₂) *
            (y₁ * y₂ - a * x₁ * x₂))) ^ 2 := by
        ring
      _ = _ := by
        rw [← y_difference, ← y_sum]
        ring
  · calc
      _ = u * a * (2 * left * right * ((x₂ * y₁ - x₁ * y₂) *
            (x₁ * y₂ + y₁ * x₂))) ^ 2 * a := by
        ring
      _ = (2 * left * right * ((1 - d * x₁ * x₂ * y₁ * y₂) *
            (1 + d * x₁ * x₂ * y₁ * y₂))) ^ 2 *
            (u * (a * x ^ 2)) * (a * x₃ ^ 2) := by
        rw [← x_difference, ← x_sum]
        ring
      _ = _ := by
        rw [abscissa]
        ring

end

variable
  {K L : Type*}
  [Field K]
  [Field L]
  {curve : EdwardsCurve K}
  {f : K →+* L}
  {A u X Z : L}
  {P : curve.Point}

/-- The ratios of points are respected by the steps of the ladder. -/
theorem squareRatio_reading
    (coefficient : IsogenyCoefficient (f curve.a) (f curve.d) A)
    (abscissa : u * (f curve.a * f P.x ^ 2) = f P.y ^ 2)
    (y_ne_zero : P.y ≠ 0) :
    Reading A u
      (fun X Z (Q : curve.Point) => SquareRatio (f curve.a) X Z (f Q.x) (f Q.y))
      P where
  infinity := ⟨1, one_ne_zero, by simp, by simp⟩
  affine := by
    have denominator : f curve.a * f P.x ^ 2 ≠ 0 := by
      intro zero
      rw [zero, mul_zero, eq_comm] at abscissa
      exact pow_ne_zero 2 ((map_ne_zero f).2 y_ne_zero) abscissa
    refine
      ⟨(f curve.a * f P.x ^ 2)⁻¹, inv_ne_zero denominator, ?_,
        (inv_mul_cancel₀ denominator).symm⟩
    rw [← abscissa, mul_comm u, inv_mul_cancel_left₀ denominator]
  double {_ _ Q} ratio :=
    ratio.double coefficient (Q.solves.map f) ((Point.isSum_add Q Q).map f)
  sum {_ _ _ _ Q R} first second shifted := by
    have base : R + -Q = P := by
      rw [shifted, add_comm Q P, add_neg_cancel_right]
    have difference := (Point.isSum_add R (-Q)).map f
    rw [base, Point.neg_x, Point.neg_y, map_neg] at difference
    exact
      first.sum second (curve.map_two_ne_zero f) abscissa
        ((map_ne_zero f).2 y_ne_zero) ((Point.isSum_add Q R).map f) difference

/-! ## Multiples of points on the axes -/

namespace Point

/-- Multiples of a point without first coordinate have none either. -/
theorem nsmul_x_of_x_eq_zero
    (zero : P.x = 0)
    (n : Nat) :
    (n • P).x = 0 := by
  induction n with
  | zero => rw [zero_nsmul, zero_x]
  | succ n ih =>
    rw [succ_nsmul, add_x, ih, zero, zero_mul, mul_zero, add_zero, zero_div]

/-- The multiples of a point of order four. -/
theorem nsmul_of_y_eq_zero
    (zero : P.y = 0)
    (n : Nat) :
    if n % 2 = 1 then (n • P).y = 0 else (n • P).x = 0 := by
  induction n with
  | zero => rw [if_neg (by decide), zero_nsmul, zero_x]
  | succ n ih =>
    rw [succ_nsmul]
    rcases Nat.mod_two_eq_zero_or_one n with even | odd
    · have next : (n + 1) % 2 = 1 := by omega
      rw [if_neg (by omega)] at ih
      rw [if_pos next, add_y, ih, zero, mul_zero, mul_zero, zero_mul, sub_zero,
        zero_div]
    · have next : ¬(n + 1) % 2 = 1 := by omega
      rw [if_pos odd] at ih
      rw [if_neg next, add_x, ih, zero, mul_zero, zero_mul, add_zero, zero_div]

/-- One of the coordinates is not zero. -/
theorem x_ne_zero_of_y_eq_zero
    (zero : P.y = 0) :
    P.x ≠ 0 := by
  intro x_zero
  have equation := P.solves.x_sq_mul
  rw [zero, x_zero] at equation
  norm_num at equation

end Point

/-! ## Isogenous points -/

/-- What an image of a point on the Montgomery curve has as its abscissa. -/
def Isogenous
    (f : K →+* L)
    (P : curve.Point) :
    (MontgomeryCurve.curve A).Point → Prop
  | .zero => P.x = 0
  | .some u _ _ => P.x ≠ 0 ∧ u * (f curve.a * f P.x ^ 2) = f P.y ^ 2

/-- A fraction that is read in both ways relates the points. -/
theorem SquareRatio.isogenous
    {R : (MontgomeryCurve.curve A).Point}
    (ratio : SquareRatio (f curve.a) X Z (f P.x) (f P.y))
    (represents : Represents X Z R) :
    Isogenous f P R := by
  rcases ratio with ⟨factor, nonzero, rfl, rfl⟩
  cases R with
  | zero =>
    have product := (mul_eq_zero.1 represents.2).resolve_left nonzero
    have square :=
      (mul_eq_zero.1 product).resolve_left ((map_ne_zero f).2 curve.a_ne_zero)
    rw [sq_eq_zero_iff, map_eq_zero] at square
    exact square
  | some u v h =>
    rcases represents with ⟨numerator, denominator⟩
    constructor
    · intro zero
      apply denominator
      rw [zero, map_zero]
      ring
    · apply mul_left_cancel₀ nonzero
      linear_combination -numerator

variable
  [DecidableEq L]

section

variable
  {v : L}
  {h : (MontgomeryCurve.curve A).Nonsingular u v}

/-- The image of a point of order four is of order two. -/
theorem Isogenous.nsmul_of_y_eq_zero
    (isogenous : Isogenous f P (.some u v h))
    (zero : P.y = 0)
    (n : Nat) :
    Isogenous f (n • P)
      (n • WeierstrassCurve.Affine.Point.some u v h) := by
  rcases isogenous with ⟨x_ne_zero, abscissa⟩
  have denominator : f curve.a * f P.x ^ 2 ≠ 0 :=
    mul_ne_zero ((map_ne_zero f).2 curve.a_ne_zero)
      (pow_ne_zero 2 ((map_ne_zero f).2 x_ne_zero))
  have origin : u = 0 := by
    apply (mul_eq_zero.1 _).resolve_right denominator
    rw [abscissa, zero, map_zero]
    ring
  subst origin
  have multiple := Point.nsmul_of_y_eq_zero zero n
  rw [MontgomeryCurve.nsmul_of_order_two]
  by_cases odd : n % 2 = 1
  · rw [if_pos odd] at multiple ⊢
    refine ⟨Point.x_ne_zero_of_y_eq_zero multiple, ?_⟩
    rw [multiple, map_zero]
    ring
  · rw [if_neg odd] at multiple ⊢
    exact multiple

/-- Other multiples are those that the ladder finds. -/
theorem Isogenous.nsmul_of_y_ne_zero
    (coefficient : IsogenyCoefficient (f curve.a) (f curve.d) A)
    (isogenous : Isogenous f P (.some u v h))
    (y_ne_zero : P.y ≠ 0)
    (n : Nat) :
    Isogenous f (n • P)
      (n • WeierstrassCurve.Affine.Point.some u v h) := by
  have abscissa := isogenous.2
  have difference : f curve.a - f curve.d ≠ 0 := by
    rw [← map_sub]
    exact (map_ne_zero f).2 a_sub_d_ne_zero
  have smooth :=
    coefficient.smooth (curve.map_two_ne_zero f)
      ((map_ne_zero f).2 d_ne_zero) difference
  have nonzero : u ≠ 0 := by
    intro zero
    rw [zero, zero_mul, eq_comm, sq_eq_zero_iff, map_eq_zero] at abscissa
    exact y_ne_zero abscissa
  have constant : 4 * ((A - 2) / 4) = A - 2 :=
    mul_div_cancel₀ _ smooth.four_ne_zero
  have number : Scalar.climbed (Scalar.highestFirst n n) 0 = n :=
    Scalar.climbed_of_lt n.lt_two_pow_self
  have ratio :=
    (squareRatio_reading coefficient abscissa y_ne_zero).ladder constant
      (Scalar.highestFirst n n)
  have represents :=
    MontgomeryCurve.ladder_represents (h := h) smooth constant nonzero
      (Scalar.highestFirst n n)
  rw [number] at ratio represents
  exact ratio.isogenous represents

end

/-- Multiples of a point go to the multiples of its image. -/
theorem Isogenous.nsmul
    {R : (MontgomeryCurve.curve A).Point}
    (coefficient : IsogenyCoefficient (f curve.a) (f curve.d) A)
    (isogenous : Isogenous f P R)
    (n : Nat) :
    Isogenous f (n • P) (n • R) := by
  cases R with
  | zero =>
    rw [← WeierstrassCurve.Affine.Point.zero_def, nsmul_zero]
    exact Point.nsmul_x_of_x_eq_zero isogenous n
  | some u v h =>
    by_cases zero : P.y = 0
    · exact isogenous.nsmul_of_y_eq_zero zero n
    · exact isogenous.nsmul_of_y_ne_zero coefficient zero n

end ModularLadder.EdwardsCurve
