import Mathlib

/-!
# Complete Edwards curves

The solutions of `a * x^2 + y^2 = 1 + d * x^2 * y^2` over a field are added by
fractions with the denominators `1 + d * x₁ * x₂ * y₁ * y₂` and
`1 - d * x₁ * x₂ * y₁ * y₂`.  If `a` is a square and `d` is not, then no
denominator is ever zero, and the law of addition has no exceptions: it serves
equal, opposite and neutral points, and those of low order.

The neutral point is `(0, 1)`, and the opposite of `(x, y)` is `(-x, y)`.  The
point `(0, -1)` has order two; adding it negates both coordinates.

Projective coordinates `(X : Y : Z)` represent the point `(x, y)` if `Z` is not
zero, `X = x * Z` and `Y = y * Z`.  The law of addition needs no division then.
-/

namespace ModularLadder

/-- The parameters of an Edwards curve without exceptional points. -/
structure EdwardsCurve (K : Type*) [Field K] where
  a : K
  d : K
  two_ne_zero : (2 : K) ≠ 0
  a_ne_zero : a ≠ 0
  isSquare_a : IsSquare a
  not_isSquare_d : ¬IsSquare d

namespace EdwardsCurve

/-- The equation of the curve with given parameters. -/
def Solves {K : Type*} [Field K] (a d x y : K) : Prop :=
  a * x ^ 2 + y ^ 2 = 1 + d * x ^ 2 * y ^ 2

instance
    {K : Type*}
    [Field K]
    [DecidableEq K]
    (a d x y : K) :
    Decidable (Solves a d x y) :=
  inferInstanceAs (Decidable (_ = _))

/-! ## Solutions of the equation -/

section

variable
  {K : Type*}
  [Field K]
  {a d x₁ y₁ x₂ y₂ : K}

/-- The first coordinate squared, in terms of the second one. -/
theorem Solves.x_sq_mul
    {x y : K}
    (solves : Solves a d x y) :
    x ^ 2 * (a - d * y ^ 2) = 1 - y ^ 2 := by
  rw [Solves] at solves
  linear_combination solves

/--
The numerators and denominators of a sum satisfy the cleared equation.  Both
sides depend on `d * x^2 * y^2` of each point, which the equations replace by
`a * x^2 + y^2 - 1`, one point after the other.
-/
theorem sum_equation
    (first : Solves a d x₁ y₁)
    (second : Solves a d x₂ y₂) :
    a * (x₁ * y₂ + y₁ * x₂) ^ 2 * (1 - d * x₁ * x₂ * y₁ * y₂) ^ 2 +
        (y₁ * y₂ - a * x₁ * x₂) ^ 2 * (1 + d * x₁ * x₂ * y₁ * y₂) ^ 2 =
      (1 + d * x₁ * x₂ * y₁ * y₂) ^ 2 * (1 - d * x₁ * x₂ * y₁ * y₂) ^ 2 +
        d * (x₁ * y₂ + y₁ * x₂) ^ 2 * (y₁ * y₂ - a * x₁ * x₂) ^ 2 := by
  rw [Solves] at first second
  let g := a * x₁ ^ 2 + y₁ ^ 2
  let h := a * x₂ ^ 2 + y₂ ^ 2
  let u := d * x₁ ^ 2 * y₁ ^ 2
  let v := d * x₂ ^ 2 * y₂ ^ 2
  linear_combination
    (h ^ 2 + v ^ 2 * (u + g - 1) - 2 * v - g * h * v) * first +
      (g ^ 2 + (g - 1) ^ 2 * (v + h - 1) - 2 * (g - 1) - g * h * (g - 1)) *
        second

/--
If the product in the denominators squares to one, then the second parameter
times a square is a square.
-/
theorem square_of_exception
    {root : K}
    (root_sq : root ^ 2 = a)
    (first : Solves a d x₁ y₁)
    (second : Solves a d x₂ y₂)
    (exception : (d * x₁ * x₂ * y₁ * y₂) ^ 2 = 1) :
    (root * x₁ + d * x₁ * x₂ * y₁ * y₂ * y₁) ^ 2 =
      d * (x₁ * y₁ * (root * x₂ + y₂)) ^ 2 := by
  rw [Solves] at first second
  linear_combination
    first + (y₁ ^ 2 - 1) * exception - d * x₁ ^ 2 * y₁ ^ 2 * second +
      (x₁ ^ 2 - d * x₁ ^ 2 * y₁ ^ 2 * x₂ ^ 2) * root_sq

end

/-! ## Points and their sums -/

variable
  {K : Type*}
  [Field K]

/-- A point of the curve. -/
@[ext]
structure Point (curve : EdwardsCurve K) where
  x : K
  y : K
  solves : Solves curve.a curve.d x y

variable {curve : EdwardsCurve K}

instance [DecidableEq K] : DecidableEq curve.Point := fun P Q =>
  decidable_of_iff (P.x = Q.x ∧ P.y = Q.y) Point.ext_iff.symm

theorem d_ne_zero :
    curve.d ≠ 0 := by
  intro zero
  exact curve.not_isSquare_d (zero ▸ IsSquare.zero)

theorem a_sub_d_ne_zero :
    curve.a - curve.d ≠ 0 := by
  intro same
  exact curve.not_isSquare_d (sub_eq_zero.1 same ▸ curve.isSquare_a)

namespace Point

/-- The product that both denominators of a sum depend on. -/
def cross (P Q : curve.Point) : K :=
  curve.d * P.x * Q.x * P.y * Q.y

/-- The law of addition has no exceptions. -/
theorem cross_sq_ne_one
    (P Q : curve.Point) :
    cross P Q ^ 2 ≠ 1 := by
  intro exception
  rcases curve.isSquare_a with ⟨root, square⟩
  have factor_zero (sign : K) (sign_sq : sign ^ 2 = 1) :
      P.x * P.y * (sign * root * Q.x + Q.y) = 0 := by
    by_contra nonzero
    have root_sq : (sign * root) ^ 2 = curve.a := by
      rw [square]
      linear_combination root ^ 2 * sign_sq
    have equation :=
      square_of_exception root_sq P.solves Q.solves exception
    apply curve.not_isSquare_d
    refine
      ⟨(sign * root * P.x + cross P Q * P.y) /
        (P.x * P.y * (sign * root * Q.x + Q.y)), ?_⟩
    rw [← pow_two, div_pow, eq_div_iff (pow_ne_zero 2 nonzero)]
    exact equation.symm
  have plus := factor_zero 1 (by norm_num)
  have minus := factor_zero (-1) (by norm_num)
  have cross_zero : 2 * cross P Q = 0 := by
    rw [cross]
    linear_combination curve.d * Q.x * (plus + minus)
  have zero := (mul_eq_zero.1 cross_zero).resolve_left curve.two_ne_zero
  rw [zero] at exception
  norm_num at exception

theorem one_add_cross_ne_zero
    (P Q : curve.Point) :
    1 + cross P Q ≠ 0 := by
  intro zero
  apply cross_sq_ne_one P Q
  linear_combination (cross P Q - 1) * zero

theorem one_sub_cross_ne_zero
    (P Q : curve.Point) :
    1 - cross P Q ≠ 0 := by
  intro zero
  apply cross_sq_ne_one P Q
  linear_combination (-cross P Q - 1) * zero

instance : Zero curve.Point where
  zero :=
    { x := 0
      y := 1
      solves := by simp [Solves] }

instance : Neg curve.Point where
  neg P :=
    { x := -P.x
      y := P.y
      solves := by
        rw [Solves, neg_sq]
        exact P.solves }

instance : Add curve.Point where
  add P Q :=
    { x := (P.x * Q.y + P.y * Q.x) / (1 + cross P Q)
      y := (P.y * Q.y - curve.a * P.x * Q.x) / (1 - cross P Q)
      solves := by
        have plus := one_add_cross_ne_zero P Q
        have minus := one_sub_cross_ne_zero P Q
        have equation := sum_equation P.solves Q.solves
        rw [Solves]
        field_simp
        rw [cross]
        linear_combination equation }

/-- The point of order two. -/
def orderTwo : curve.Point where
  x := 0
  y := -1
  solves := by simp [Solves]

/-! ## Coordinates of sums -/

@[simp]
theorem zero_x :
    (0 : curve.Point).x = 0 :=
  rfl

@[simp]
theorem zero_y :
    (0 : curve.Point).y = 1 :=
  rfl

@[simp]
theorem neg_x
    (P : curve.Point) :
    (-P).x = -P.x :=
  rfl

@[simp]
theorem neg_y
    (P : curve.Point) :
    (-P).y = P.y :=
  rfl

theorem add_x
    (P Q : curve.Point) :
    (P + Q).x = (P.x * Q.y + P.y * Q.x) / (1 + cross P Q) :=
  rfl

theorem add_y
    (P Q : curve.Point) :
    (P + Q).y = (P.y * Q.y - curve.a * P.x * Q.x) / (1 - cross P Q) :=
  rfl

theorem add_x_mul
    (P Q : curve.Point) :
    (P + Q).x * (1 + cross P Q) = P.x * Q.y + P.y * Q.x := by
  rw [add_x, div_mul_cancel₀ _ (one_add_cross_ne_zero P Q)]

theorem add_y_mul
    (P Q : curve.Point) :
    (P + Q).y * (1 - cross P Q) = P.y * Q.y - curve.a * P.x * Q.x := by
  rw [add_y, div_mul_cancel₀ _ (one_sub_cross_ne_zero P Q)]

@[simp]
theorem orderTwo_x :
    (orderTwo : curve.Point).x = 0 :=
  rfl

@[simp]
theorem orderTwo_y :
    (orderTwo : curve.Point).y = -1 :=
  rfl

/-- Coordinates identify a sum, once the denominators are cleared. -/
theorem eq_add_of_mul
    {P Q R : curve.Point}
    (x : R.x * (1 + cross P Q) = P.x * Q.y + P.y * Q.x)
    (y : R.y * (1 - cross P Q) = P.y * Q.y - curve.a * P.x * Q.x) :
    R = P + Q := by
  apply Point.ext
  · rw [add_x, eq_div_iff (one_add_cross_ne_zero P Q)]
    exact x
  · rw [add_y, eq_div_iff (one_sub_cross_ne_zero P Q)]
    exact y

theorem cross_comm
    (P Q : curve.Point) :
    cross P Q = cross Q P := by
  rw [cross, cross]
  ring

/-- Sums do not depend on the order of the points. -/
theorem sum_comm
    (P Q : curve.Point) :
    P + Q = Q + P := by
  apply eq_add_of_mul
  · rw [cross_comm, add_x_mul]
    ring
  · rw [cross_comm, add_y_mul]
    ring

theorem zero_sum
    (P : curve.Point) :
    0 + P = P := by
  symm
  apply eq_add_of_mul <;> simp [cross]

theorem neg_sum_self
    (P : curve.Point) :
    -P + P = 0 := by
  have equation := P.solves
  rw [Solves] at equation
  symm
  apply eq_add_of_mul
  · simp [cross]
    ring
  · simp only [cross, zero_y, neg_x, neg_y]
    linear_combination -equation

/-- The point of order two negates both coordinates. -/
@[simp]
theorem add_orderTwo_x
    (P : curve.Point) :
    (P + orderTwo).x = -P.x := by
  simp [add_x, cross]

@[simp]
theorem add_orderTwo_y
    (P : curve.Point) :
    (P + orderTwo).y = -P.y := by
  simp [add_y, cross]

/-- The point of order two may be added before or after. -/
theorem sum_orderTwo_assoc
    (P Q : curve.Point) :
    P + (Q + orderTwo) = P + Q + orderTwo := by
  have same : cross P (Q + orderTwo) = cross P Q := by
    simp only [cross, add_orderTwo_x, add_orderTwo_y]
    ring
  symm
  apply eq_add_of_mul
  · rw [same, add_orderTwo_x, add_orderTwo_x, add_orderTwo_y, neg_mul,
      add_x_mul]
    ring
  · rw [same, add_orderTwo_y, add_orderTwo_x, add_orderTwo_y, neg_mul,
      add_y_mul]
    ring

/-! ## Points that share a coordinate -/

theorem a_sub_d_mul_ne_zero
    (P : curve.Point) :
    curve.a - curve.d * P.y ^ 2 ≠ 0 := by
  intro zero
  have square : P.y ^ 2 = 1 := by
    linear_combination P.solves.x_sq_mul - P.x ^ 2 * zero
  rw [square, mul_one] at zero
  exact a_sub_d_ne_zero zero

/-- The first coordinate determines the second one up to the sign. -/
theorem y_sq_eq_of_x_sq_eq
    {P Q : curve.Point}
    (same : P.x ^ 2 = Q.x ^ 2) :
    P.y ^ 2 = Q.y ^ 2 := by
  have first := P.solves
  have second := Q.solves
  rw [Solves] at first second
  have nonzero : 1 - curve.d * P.x ^ 2 ≠ 0 := by
    intro zero
    apply curve.not_isSquare_d
    have one : curve.d * P.x ^ 2 = 1 := (sub_eq_zero.1 zero).symm
    refine ⟨P.x⁻¹, ?_⟩
    rw [← pow_two, inv_pow]
    exact eq_inv_of_mul_eq_one_left one
  apply mul_right_cancel₀ nonzero
  linear_combination
    first - second + (curve.d * Q.y ^ 2 - curve.a) * same

/-- Points are told apart by cross products of projective coordinates. -/
theorem cross_products_iff
    {P Q : curve.Point}
    {z z' : K}
    (z_ne_zero : z ≠ 0)
    (z'_ne_zero : z' ≠ 0) :
    P.x * z * z' = Q.x * z' * z ∧ P.y * z * z' = Q.y * z' * z ↔ P = Q := by
  have cross (u v : K) : u * z * z' = v * z' * z ↔ u = v := by
    rw [mul_right_comm v, mul_assoc, mul_assoc]
    exact mul_left_inj' (mul_ne_zero z_ne_zero z'_ne_zero)
  rw [cross, cross, Point.ext_iff]

/-- Two points only have the first coordinate zero. -/
theorem eq_of_x_eq_zero
    {P : curve.Point}
    (zero : P.x = 0) :
    P = 0 ∨ P = orderTwo := by
  have square : P.y ^ 2 = 1 := by
    have equation := P.solves.x_sq_mul
    rw [zero] at equation
    linear_combination equation
  rcases sq_eq_one_iff.1 square with one | minusOne
  · exact Or.inl (Point.ext zero one)
  · exact Or.inr (Point.ext zero minusOne)

/-- The neutral point is known by its second coordinate. -/
theorem eq_zero_of_y_eq_one
    {P : curve.Point}
    (one : P.y = 1) :
    P = 0 := by
  apply Point.ext _ one
  have equation := P.solves.x_sq_mul
  rw [one, one_pow, mul_one, sub_self, mul_eq_zero] at equation
  exact sq_eq_zero_iff.1 (equation.resolve_right a_sub_d_ne_zero)

theorem eq_zero_iff_y_eq_one
    {P : curve.Point} :
    P = 0 ↔ P.y = 1 := by
  constructor
  · rintro rfl
    exact zero_y
  · exact eq_zero_of_y_eq_one

/-- Points whose second coordinates agree up to the sign. -/
theorem eq_of_y_sq_eq
    {P Q : curve.Point}
    (same : P.y ^ 2 = Q.y ^ 2) :
    (Q = P ∨ Q = -P) ∨ Q = P + orderTwo ∨ Q = -P + orderTwo := by
  have squares : Q.x ^ 2 = P.x ^ 2 := by
    apply mul_right_cancel₀ P.a_sub_d_mul_ne_zero
    rw [P.solves.x_sq_mul, same, Q.solves.x_sq_mul]
  rcases sq_eq_sq_iff_eq_or_eq_neg.1 squares with x | x <;>
    rcases sq_eq_sq_iff_eq_or_eq_neg.1 same.symm with y | y
  · exact Or.inl (Or.inl (Point.ext x y))
  · exact
      Or.inr (Or.inr (Point.ext (by simpa using x) (by simpa using y)))
  · exact Or.inl (Or.inr (Point.ext x y))
  · exact
      Or.inr (Or.inl (Point.ext (by simpa using x) (by simpa using y)))

end Point

/-! ## Projective coordinates -/

/-- Projective coordinates of a point of the curve. -/
structure Projective
    (x y z : K)
    (P : curve.Point) :
    Prop where
  z_ne_zero : z ≠ 0
  x_eq : x = P.x * z
  y_eq : y = P.y * z

section

variable
  {x y z x' y' z' : K}
  {P Q : curve.Point}

/-- The denominators of a sum are those of its projective formula. -/
theorem Projective.cross_eq
    (left : Projective x y z P)
    (right : Projective x' y' z' Q) :
    curve.d * (x * x' * (y * y')) = (z * z') ^ 2 * P.cross Q := by
  rw [left.x_eq, left.y_eq, right.x_eq, right.y_eq, Point.cross]
  ring

/-- The law of addition without division, whatever the points are. -/
theorem Projective.sum
    (left : Projective x y z P)
    (right : Projective x' y' z' Q) :
    Projective
      (z * z' * ((z * z') ^ 2 - curve.d * (x * x' * (y * y'))) *
        (x * y' + y * x'))
      (z * z' * ((z * z') ^ 2 + curve.d * (x * x' * (y * y'))) *
        (y * y' - curve.a * (x * x')))
      (((z * z') ^ 2 - curve.d * (x * x' * (y * y'))) *
        ((z * z') ^ 2 + curve.d * (x * x' * (y * y'))))
      (P + Q) := by
  have plus := Point.one_add_cross_ne_zero P Q
  have minus := Point.one_sub_cross_ne_zero P Q
  have x_mul := Point.add_x_mul P Q
  have y_mul := Point.add_y_mul P Q
  rw [left.cross_eq right]
  rcases left with ⟨z_ne_zero, rfl, rfl⟩
  rcases right with ⟨z'_ne_zero, rfl, rfl⟩
  have factor : (z * z') ^ 2 ≠ 0 :=
    pow_ne_zero 2 (mul_ne_zero z_ne_zero z'_ne_zero)
  constructor
  · convert mul_ne_zero (mul_ne_zero factor minus) (mul_ne_zero factor plus)
      using 1
    ring
  · linear_combination -(z * z') ^ 4 * (1 - P.cross Q) * x_mul
  · linear_combination -(z * z') ^ 4 * (1 + P.cross Q) * y_mul

theorem projective_zero :
    Projective 0 1 1 (0 : curve.Point) := by
  constructor <;> simp

theorem projective_affine
    (P : curve.Point) :
    Projective P.x P.y 1 P := by
  constructor <;> simp

/-- The neutral point has equal second and third coordinates. -/
theorem Projective.eq_zero
    (projective : Projective x y z P)
    (same : y = z) :
    P = 0 := by
  apply Point.eq_zero_of_y_eq_one
  apply mul_right_cancel₀ projective.z_ne_zero
  rw [one_mul, ← projective.y_eq, same]

end

end EdwardsCurve

end ModularLadder
