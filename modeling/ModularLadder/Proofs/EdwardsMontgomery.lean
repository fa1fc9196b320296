import Mathlib
import ModularLadder.Proofs.EdwardsCurve
import ModularLadder.Proofs.MontgomeryCurve

/-!
# Edwards coordinates on a Montgomery curve

To an Edwards curve belongs the Montgomery curve with the coefficient
`A = 2 * (a + d) / (a - d)`.  A solution `(x, y)` other than `(0, 1)` goes to
the point with abscissa `u = (1 + y) / (1 - y)` whose ordinate is a multiple of
`u / x`, by a factor whose square is `4 / (a - d)`.  Written as a multiple of
`x * (a - d * y^2) / (1 - y)^2` the ordinate makes sense for `x = 0` as well.

The three statements about images say where a sum goes: to the third point on
the line through two images, up to the sign; to the third point on a tangent;
and where a point goes to which the point of order two is added.  For a line,
the sum is first written without the parameters of the curve, which are then
what two points of different `y^2` determine.
-/

namespace ModularLadder.EdwardsCurve

section

variable
  {L : Type*}
  [Field L]

/-! ## The companion curve -/

/--
The coefficient of a Montgomery curve that belongs to an Edwards curve, and
the factor of its ordinates.
-/
structure Companion (a d A r : L) : Prop where
  two_ne_zero : (2 : L) ≠ 0
  a_ne_zero : a ≠ 0
  d_ne_zero : d ≠ 0
  a_sub_d_ne_zero : a - d ≠ 0
  coefficient : A * (a - d) = 2 * (a + d)
  scale : r ^ 2 * (a - d) = 4

/-- The sum of two solutions, with the denominators cleared. -/
structure IsSum (a d x₁ y₁ x₂ y₂ x₃ y₃ : L) : Prop where
  plus_ne_zero : 1 + d * x₁ * x₂ * y₁ * y₂ ≠ 0
  minus_ne_zero : 1 - d * x₁ * x₂ * y₁ * y₂ ≠ 0
  x_eq : x₃ * (1 + d * x₁ * x₂ * y₁ * y₂) = x₁ * y₂ + y₁ * x₂
  y_eq : y₃ * (1 - d * x₁ * x₂ * y₁ * y₂) = y₁ * y₂ - a * x₁ * x₂

/-- The abscissa on the Montgomery curve. -/
def abscissa (y : L) : L :=
  (1 + y) / (1 - y)

/-- The ordinate on the Montgomery curve. -/
def ordinate (a d r x y : L) : L :=
  r * x * (a - d * y ^ 2) / (1 - y) ^ 2

/-- The slope of a line on the Montgomery curve, but for the factor. -/
def chordSlope (x₁ y₁ x₂ y₂ : L) : L :=
  ((x₂ - x₁) * (1 - y₁ * y₂) + (x₁ + x₂) * (y₁ - y₂)) /
    (2 * x₁ * x₂ * (y₁ - y₂))

/-- The slope of a tangent on the Montgomery curve, but for the factor. -/
def tangentSlope (a d x y : L) : L :=
  (2 * ((1 - y) * (1 + y)) + x ^ 2 * y * (a - d)) /
    (2 * x * ((1 - y) * (1 + y)))

variable
  {a d A r x y x₁ y₁ x₂ y₂ x₃ y₃ : L}

/-- The image of a solution is on the Montgomery curve. -/
theorem Companion.ordinate_sq
    (companion : Companion a d A r)
    (solves : Solves a d x y)
    (finite : 1 - y ≠ 0) :
    ordinate a d r x y ^ 2 =
      abscissa y ^ 3 + A * abscissa y ^ 2 + abscissa y := by
  rw [abscissa, ordinate]
  field_simp
  apply mul_left_cancel₀ companion.a_sub_d_ne_zero
  linear_combination
    x ^ 2 * (a - d * y ^ 2) ^ 2 * companion.scale +
      4 * (a - d * y ^ 2) * solves.x_sq_mul -
      (1 + y) ^ 2 * (1 - y) ^ 2 * companion.coefficient

theorem Companion.smooth
    (companion : Companion a d A r) :
    MontgomeryCurve.Smooth A where
  two_ne_zero := companion.two_ne_zero
  square_ne_four := by
    intro square
    have zero : 2 ^ 4 * (a * d) = 0 := by
      linear_combination
        (a - d) ^ 2 * square -
          (A * (a - d) + 2 * (a + d)) * companion.coefficient
    exact
      mul_ne_zero (pow_ne_zero 4 companion.two_ne_zero)
        (mul_ne_zero companion.a_ne_zero companion.d_ne_zero) zero

theorem Companion.factor_ne_zero
    (companion : Companion a d A r) :
    r ≠ 0 := by
  intro zero
  have four : (2 : L) ^ 2 = 0 := by
    linear_combination r * (a - d) * zero - companion.scale
  exact pow_ne_zero 2 companion.two_ne_zero four

/-- The abscissa determines the second coordinate. -/
theorem Companion.abscissa_injective
    (companion : Companion a d A r)
    {y y' : L}
    (finite : 1 - y ≠ 0)
    (finite' : 1 - y' ≠ 0)
    (same : abscissa y = abscissa y') :
    y = y' := by
  rw [abscissa, abscissa, div_eq_div_iff finite finite'] at same
  apply mul_left_cancel₀ companion.two_ne_zero
  linear_combination same

/-- A point with nonzero first coordinate is neither neutral nor of order two. -/
theorem Companion.finite_of_ne_zero
    (companion : Companion a d A r)
    (solves : Solves a d x y)
    (nonzero : x ≠ 0) :
    (1 - y) * (1 + y) ≠ 0 := by
  intro zero
  have product : x ^ 2 * (a - d * y ^ 2) = 0 := by
    rw [solves.x_sq_mul]
    linear_combination zero
  have factor :=
    (mul_eq_zero.1 product).resolve_left (pow_ne_zero 2 nonzero)
  apply companion.a_sub_d_ne_zero
  linear_combination factor - d * zero

/-- The ordinate is the factor times the quotient of the abscissa by `x`. -/
theorem Solves.ordinate_eq
    (solves : Solves a d x y)
    (finite : 1 - y ≠ 0)
    (nonzero : x ≠ 0) :
    ordinate a d r x y = r * (abscissa y / x) := by
  rw [abscissa, ordinate]
  field_simp
  linear_combination r * solves.x_sq_mul

/-- The abscissa of a third point, by a slope without the factor. -/
theorem Companion.abscissa_of_slope
    (companion : Companion a d A r)
    {slope u₁ u₂ u₃ : L}
    (trace : (a - d) * (u₁ + u₂ + u₃) + 2 * (a + d) = 4 * slope ^ 2) :
    u₃ = (r * slope) ^ 2 - A - u₁ - u₂ := by
  apply mul_left_cancel₀ companion.a_sub_d_ne_zero
  linear_combination
    trace - slope ^ 2 * companion.scale + companion.coefficient

/-! ## Sums without the parameters of the curve -/

section Sums

variable
  (first : Solves a d x₁ y₁)
  (second : Solves a d x₂ y₂)
  (sum : IsSum a d x₁ y₁ x₂ y₂ x₃ y₃)

include first second sum

/-- The second coordinate of a sum, without the parameters of the curve. -/
theorem IsSum.one_sub_y_mul :
    (1 - y₃) * (y₁ * x₂ - x₁ * y₂) = (x₁ + x₂) * (y₁ - y₂) := by
  rw [Solves] at first second
  apply mul_right_cancel₀ sum.minus_ne_zero
  linear_combination
    x₁ * y₁ * second - x₂ * y₂ * first + (x₁ * y₂ - y₁ * x₂) * sum.y_eq

theorem IsSum.one_add_y_mul :
    (1 + y₃) * (y₁ * x₂ - x₁ * y₂) = (x₂ - x₁) * (y₁ + y₂) := by
  rw [Solves] at first second
  apply mul_right_cancel₀ sum.minus_ne_zero
  linear_combination
    x₂ * y₂ * first - x₁ * y₁ * second - (x₁ * y₂ - y₁ * x₂) * sum.y_eq

/-- The first coordinate of a sum, without the parameters of the curve. -/
theorem IsSum.x_mul :
    x₃ * (x₁ * y₁ * (1 - y₂ ^ 2) - x₂ * y₂ * (1 - y₁ ^ 2)) =
      x₁ * x₂ * ((y₁ + y₂) * (y₁ - y₂)) := by
  rw [Solves] at first second
  apply mul_right_cancel₀ sum.plus_ne_zero
  linear_combination
    (x₁ * y₁ * (1 - y₂ ^ 2) - x₂ * y₂ * (1 - y₁ ^ 2)) * sum.x_eq +
      y₁ * y₂ * (x₂ ^ 2 * first - x₁ ^ 2 * second)

end Sums

/-! ## The line through two images -/

/-- Two points through whose images a line is drawn. -/
structure Generic (x₁ y₁ x₂ y₂ : L) : Prop where
  x₁_ne_zero : x₁ ≠ 0
  x₂_ne_zero : x₂ ≠ 0
  finite₁ : 1 - y₁ ≠ 0
  finite₂ : 1 - y₂ ≠ 0
  x_add_ne_zero : x₁ + x₂ ≠ 0
  x_sub_ne_zero : x₂ - x₁ ≠ 0
  y_add_ne_zero : y₁ + y₂ ≠ 0
  y_sub_ne_zero : y₁ - y₂ ≠ 0

/-- The abscissa of the third point on a line. -/
def chordAbscissa (x₁ y₁ x₂ y₂ : L) : L :=
  (x₂ - x₁) * (y₁ + y₂) / ((x₁ + x₂) * (y₁ - y₂))

namespace Generic

variable
  (generic : Generic x₁ y₁ x₂ y₂)

include generic

theorem chordSlope_mul
    (two_ne_zero : (2 : L) ≠ 0) :
    chordSlope x₁ y₁ x₂ y₂ * (abscissa y₁ - abscissa y₂) =
      abscissa y₁ / x₁ - abscissa y₂ / x₂ := by
  rcases generic with ⟨h1, h2, h3, h4, -, -, -, h5⟩
  rw [chordSlope, abscissa, abscissa]
  field_simp
  ring

/--
The third point on a line has the abscissa that the slope gives it.  Two points
of different `y^2` determine the parameters of their curve, which leaves an
identity of four coordinates.
-/
theorem chord_trace
    (two_ne_zero : (2 : L) ≠ 0)
    (first : Solves a d x₁ y₁)
    (second : Solves a d x₂ y₂) :
    (a - d) * (abscissa y₁ + abscissa y₂ + chordAbscissa x₁ y₁ x₂ y₂) +
        2 * (a + d) =
      4 * chordSlope x₁ y₁ x₂ y₂ ^ 2 := by
  rcases generic with ⟨h1, h2, h3, h4, h5, -, h6, h7⟩
  rw [Solves] at first second
  have a_eq :
      a =
        ((1 - y₂ ^ 2) * y₁ ^ 2 / x₂ ^ 2 - (1 - y₁ ^ 2) * y₂ ^ 2 / x₁ ^ 2) /
          ((y₁ + y₂) * (y₁ - y₂)) := by
    field_simp
    linear_combination x₁ ^ 2 * y₁ ^ 2 * second - x₂ ^ 2 * y₂ ^ 2 * first
  have d_eq :
      d =
        ((1 - y₂ ^ 2) / x₂ ^ 2 - (1 - y₁ ^ 2) / x₁ ^ 2) /
          ((y₁ + y₂) * (y₁ - y₂)) := by
    field_simp
    linear_combination x₁ ^ 2 * second - x₂ ^ 2 * first
  rw [a_eq, d_eq, chordSlope, chordAbscissa, abscissa, abscissa]
  clear a_eq d_eq first second
  field_simp
  ring

/-- The third point on a line is on the line. -/
theorem chord_ordinate
    (two_ne_zero : (2 : L) ≠ 0) :
    chordAbscissa x₁ y₁ x₂ y₂ *
        (x₁ * y₁ * (1 - y₂ ^ 2) - x₂ * y₂ * (1 - y₁ ^ 2)) /
        (x₁ * x₂ * ((y₁ + y₂) * (y₁ - y₂))) =
      -(chordSlope x₁ y₁ x₂ y₂ *
          (chordAbscissa x₁ y₁ x₂ y₂ - abscissa y₁) +
        abscissa y₁ / x₁) := by
  rcases generic with ⟨h1, h2, h3, -, h4, -, h5, h6⟩
  rw [chordSlope, chordAbscissa, abscissa]
  field_simp
  ring

/-- The image of a sum, where a line through the images can be drawn. -/
theorem image_sum
    (companion : Companion a d A r)
    (first : Solves a d x₁ y₁)
    (second : Solves a d x₂ y₂)
    (third : Solves a d x₃ y₃)
    (sum : IsSum a d x₁ y₁ x₂ y₂ x₃ y₃) :
    1 - y₃ ≠ 0 ∧
      abscissa y₃ =
        (r * chordSlope x₁ y₁ x₂ y₂) ^ 2 - A - abscissa y₁ - abscissa y₂ ∧
      ordinate a d r x₃ y₃ =
        -(r * chordSlope x₁ y₁ x₂ y₂ * (abscissa y₃ - abscissa y₁) +
          ordinate a d r x₁ y₁) := by
  have minus := sum.one_sub_y_mul first second
  have plus := sum.one_add_y_mul first second
  have minus_ne_zero :
      (1 - y₃) * (y₁ * x₂ - x₁ * y₂) ≠ 0 := by
    rw [minus]
    exact mul_ne_zero generic.x_add_ne_zero generic.y_sub_ne_zero
  have plus_ne_zero :
      (1 + y₃) * (y₁ * x₂ - x₁ * y₂) ≠ 0 := by
    rw [plus]
    exact mul_ne_zero generic.x_sub_ne_zero generic.y_add_ne_zero
  have finite := left_ne_zero_of_mul minus_ne_zero
  have abscissa_eq : abscissa y₃ = chordAbscissa x₁ y₁ x₂ y₂ := by
    rw [abscissa, chordAbscissa, ← minus, ← plus,
      mul_div_mul_right _ _ (right_ne_zero_of_mul minus_ne_zero)]
  have x_ne_zero : x₃ ≠ 0 := by
    intro zero
    apply mul_ne_zero finite (left_ne_zero_of_mul plus_ne_zero)
    have square := third.x_sq_mul
    rw [zero] at square
    linear_combination -square
  have trace :=
    generic.chord_trace companion.two_ne_zero first second
  have line := generic.chord_ordinate companion.two_ne_zero
  have quotient :
      abscissa y₃ / x₃ =
        chordAbscissa x₁ y₁ x₂ y₂ *
            (x₁ * y₁ * (1 - y₂ ^ 2) - x₂ * y₂ * (1 - y₁ ^ 2)) /
          (x₁ * x₂ * ((y₁ + y₂) * (y₁ - y₂))) := by
    have denominator :
        x₁ * x₂ * ((y₁ + y₂) * (y₁ - y₂)) ≠ 0 :=
      mul_ne_zero (mul_ne_zero generic.x₁_ne_zero generic.x₂_ne_zero)
        (mul_ne_zero generic.y_add_ne_zero generic.y_sub_ne_zero)
    rw [abscissa_eq, div_eq_div_iff x_ne_zero denominator,
      ← sum.x_mul first second]
    ring
  refine ⟨finite, ?_, ?_⟩
  · rw [abscissa_eq]
    exact companion.abscissa_of_slope trace
  · rw [third.ordinate_eq finite x_ne_zero,
      first.ordinate_eq generic.finite₁ generic.x₁_ne_zero, quotient, line,
      abscissa_eq]
    ring

end Generic

/-! ## The tangent -/

section Tangent

variable
  (solves : Solves a d x y)
  (two_ne_zero : (2 : L) ≠ 0)
  (nonzero : x ≠ 0)
  (finite : 1 - y ≠ 0)
  (opposite : 1 + y ≠ 0)

include solves two_ne_zero nonzero finite opposite

theorem tangentSlope_mul :
    8 * tangentSlope a d x y * (abscissa y / x) =
      (a - d) * (3 * abscissa y ^ 2 + 1) + 4 * (a + d) * abscissa y := by
  rw [Solves] at solves
  rw [tangentSlope, abscissa]
  field_simp
  linear_combination -16 * solves

/-- The third point on a tangent has the abscissa that the slope gives it. -/
theorem tangent_trace :
    (a - d) *
          (abscissa y + abscissa y +
            (1 - a * x ^ 2) / ((1 - y) * (1 + y))) +
        2 * (a + d) =
      4 * tangentSlope a d x y ^ 2 := by
  rw [Solves] at solves
  rw [tangentSlope, abscissa]
  field_simp
  linear_combination (16 * (1 - y ^ 2) - 4 * (a - d) * x ^ 2) * solves

/-- The third point on a tangent is on the tangent. -/
theorem tangent_ordinate :
    (a - d) * x * y * (a * x ^ 2 + y ^ 2) /
        (2 * ((1 - y) * (1 + y)) ^ 2) =
      -(tangentSlope a d x y *
          ((1 - a * x ^ 2) / ((1 - y) * (1 + y)) - abscissa y) +
        abscissa y / x) := by
  rw [Solves] at solves
  rw [tangentSlope, abscissa]
  field_simp
  linear_combination -2 * solves

end Tangent

section Double

variable
  (solves : Solves a d x y)
  (sum : IsSum a d x y x y x₃ y₃)

include solves sum

theorem IsSum.double_one_sub_y_mul :
    (1 - y₃) * (1 - d * x * x * y * y) = 2 * ((1 - y) * (1 + y)) := by
  rw [Solves] at solves
  linear_combination solves - sum.y_eq

theorem IsSum.double_one_add_y_mul :
    (1 + y₃) * (1 - d * x * x * y * y) = 2 * (1 - a * x ^ 2) := by
  rw [Solves] at solves
  linear_combination solves + sum.y_eq

theorem IsSum.double_parameter_mul :
    (a - d * y₃ ^ 2) * (1 - d * x * x * y * y) ^ 2 =
      (a - d) * (1 + d * x * x * y * y) ^ 2 := by
  rw [Solves] at solves
  linear_combination
    -d * (y₃ * (1 - d * x * x * y * y) + y * y - a * x * x) * sum.y_eq -
      d * (a * x ^ 2 + y ^ 2 + 1 + d * x ^ 2 * y ^ 2) * solves

/-- The image of a double, by the tangent to the image of the point. -/
theorem Companion.image_double
    (companion : Companion a d A r)
    (nonzero : x ≠ 0) :
    1 - y₃ ≠ 0 ∧
      abscissa y₃ =
        (r * tangentSlope a d x y) ^ 2 - A - abscissa y - abscissa y ∧
      ordinate a d r x₃ y₃ =
        -(r * tangentSlope a d x y * (abscissa y₃ - abscissa y) +
          ordinate a d r x y) := by
  have two := companion.two_ne_zero
  have order := companion.finite_of_ne_zero solves nonzero
  have finite := left_ne_zero_of_mul order
  have opposite := right_ne_zero_of_mul order
  have minus := sum.double_one_sub_y_mul solves
  have plus := sum.double_one_add_y_mul solves
  have finite₃ : 1 - y₃ ≠ 0 := by
    apply left_ne_zero_of_mul (b := 1 - d * x * x * y * y)
    rw [minus]
    exact mul_ne_zero two order
  have abscissa_eq :
      abscissa y₃ = (1 - a * x ^ 2) / ((1 - y) * (1 + y)) := by
    rw [abscissa, ← mul_div_mul_right _ _ sum.minus_ne_zero, minus, plus,
      mul_div_mul_left _ _ two]
  have ordinate_eq :
      ordinate a d r x₃ y₃ =
        r *
          ((a - d) * x * y * (a * x ^ 2 + y ^ 2) /
            (2 * ((1 - y) * (1 + y)) ^ 2)) := by
    have denominator : 2 * ((1 - y) * (1 + y)) ^ 2 ≠ 0 :=
      mul_ne_zero two (pow_ne_zero 2 order)
    have parameter := sum.double_parameter_mul solves
    have x_eq := sum.x_eq
    rw [Solves] at solves
    rw [ordinate, ← mul_div_assoc,
      div_eq_div_iff (pow_ne_zero 2 finite₃) denominator]
    apply mul_right_cancel₀ sum.plus_ne_zero
    apply mul_right_cancel₀ (pow_ne_zero 2 sum.minus_ne_zero)
    linear_combination
      2 * r * ((1 - y) * (1 + y)) ^ 2 *
          ((a - d * y₃ ^ 2) * (1 - d * x * x * y * y) ^ 2 * x_eq +
            2 * x * y * parameter -
            2 * x * y * (a - d) * (1 + d * x * x * y * y) * solves) -
        r * (a - d) * x * y * (a * x ^ 2 + y ^ 2) *
          (1 + d * x * x * y * y) *
          ((1 - y₃) * (1 - d * x * x * y * y) + 2 * ((1 - y) * (1 + y))) *
          minus
  refine ⟨finite₃, ?_, ?_⟩
  · rw [abscissa_eq]
    exact
      companion.abscissa_of_slope
        (tangent_trace solves two nonzero finite opposite)
  · rw [ordinate_eq, solves.ordinate_eq finite nonzero,
      tangent_ordinate solves two nonzero finite opposite, abscissa_eq]
    ring

end Double

/-! ## Adding the point of order two -/

/-- The image of a point to which the point of order two is added. -/
theorem Companion.image_opposite
    (companion : Companion a d A r)
    (solves : Solves a d x y)
    (nonzero : x ≠ 0) :
    abscissa (-y) = (r * (1 / x)) ^ 2 - A - abscissa y - 0 ∧
      ordinate a d r (-x) (-y) =
        -(r * (1 / x) * (abscissa (-y) - abscissa y) + ordinate a d r x y) := by
  have order := companion.finite_of_ne_zero solves nonzero
  have finite := left_ne_zero_of_mul order
  have opposite : 1 - -y ≠ 0 := by
    rw [sub_neg_eq_add]
    exact right_ne_zero_of_mul order
  have negated : Solves a d (-x) (-y) := by
    rw [Solves, neg_sq, neg_sq]
    exact solves
  constructor
  · apply companion.abscissa_of_slope
    rw [abscissa, abscissa]
    field_simp
    linear_combination 4 * solves.x_sq_mul
  · rw [solves.ordinate_eq finite nonzero,
      negated.ordinate_eq opposite (neg_ne_zero.2 nonzero), div_neg]
    ring

end

end ModularLadder.EdwardsCurve
