import Mathlib
import ModularLadder.Proofs.EdwardsMontgomery

/-!
# The group of an Edwards curve

The points of a complete Edwards curve form an abelian group.  Associativity
is taken over from a Montgomery curve over a larger field, into whose points
those of the Edwards curve are mapped one to one and additively.

Where two points differ in the square of `y`, the line through their images
leads to the image of the sum.  Otherwise the points are equal or opposite, up
to the point of order two: equal points are treated with the tangent, and
adding the point of order two is treated apart.
-/

namespace ModularLadder.EdwardsCurve

section

variable
  {K L : Type*}
  [Field K]
  [Field L]
  {curve : EdwardsCurve K}

theorem Solves.map
    {a d x y : K}
    (solves : Solves a d x y)
    (f : K →+* L) :
    Solves (f a) (f d) (f x) (f y) := by
  rw [Solves] at solves
  have image := congrArg f solves
  simpa only [Solves, map_add, map_mul, map_pow, map_one] using image

namespace Point

theorem isSum_add
    (P Q : curve.Point) :
    IsSum curve.a curve.d P.x P.y Q.x Q.y (P + Q).x (P + Q).y where
  plus_ne_zero := one_add_cross_ne_zero P Q
  minus_ne_zero := one_sub_cross_ne_zero P Q
  x_eq := add_x_mul P Q
  y_eq := add_y_mul P Q

end Point

theorem IsSum.map
    {a d x₁ y₁ x₂ y₂ x₃ y₃ : K}
    (sum : IsSum a d x₁ y₁ x₂ y₂ x₃ y₃)
    (f : K →+* L) :
    IsSum (f a) (f d) (f x₁) (f y₁) (f x₂) (f y₂) (f x₃) (f y₃) where
  plus_ne_zero := by
    have image := (map_ne_zero f).2 sum.plus_ne_zero
    simpa only [map_add, map_mul, map_one] using image
  minus_ne_zero := by
    have image := (map_ne_zero f).2 sum.minus_ne_zero
    simpa only [map_sub, map_mul, map_one] using image
  x_eq := by
    have image := congrArg f sum.x_eq
    simpa only [map_add, map_mul, map_one] using image
  y_eq := by
    have image := congrArg f sum.y_eq
    simpa only [map_sub, map_mul, map_one] using image

/-! ## A companion over a larger field -/

variable
  {f : K →+* L}
  {A r : L}

/-- The Montgomery curve that belongs to an Edwards curve over a larger field. -/
abbrev HasCompanion (curve : EdwardsCurve K) (f : K →+* L) (A r : L) : Prop :=
  Companion (f curve.a) (f curve.d) A r

theorem map_two_ne_zero
    (curve : EdwardsCurve K)
    (f : K →+* L) :
    (2 : L) ≠ 0 := by
  rw [← map_ofNat f 2]
  exact (map_ne_zero f).2 curve.two_ne_zero

/-- Some field has a Montgomery curve that belongs to the Edwards curve. -/
theorem exists_companion
    [IsAlgClosed L]
    (curve : EdwardsCurve K)
    (f : K →+* L) :
    ∃ A r, HasCompanion curve f A r := by
  have difference : f curve.a - f curve.d ≠ 0 := by
    rw [← map_sub]
    exact (map_ne_zero f).2 a_sub_d_ne_zero
  rcases IsAlgClosed.exists_pow_nat_eq (4 / (f curve.a - f curve.d))
      (Nat.two_pos) with
    ⟨r, square⟩
  refine
    ⟨2 * (f curve.a + f curve.d) / (f curve.a - f curve.d), r,
      { two_ne_zero := curve.map_two_ne_zero f
        a_ne_zero := (map_ne_zero f).2 curve.a_ne_zero
        d_ne_zero := (map_ne_zero f).2 d_ne_zero
        a_sub_d_ne_zero := difference
        coefficient := div_mul_cancel₀ _ difference
        scale := ?_ }⟩
  rw [square, div_mul_cancel₀ _ difference]

/-- Only the neutral point has no abscissa. -/
theorem eq_zero_of_infinite
    {P : curve.Point}
    (infinite : 1 - f P.y = 0) :
    P = 0 := by
  rw [← map_one f, ← map_sub, map_eq_zero, sub_eq_zero] at infinite
  exact Point.eq_zero_of_y_eq_one infinite.symm

/-- Points of different `y^2` have images through which a line is drawn. -/
theorem generic_of_ne
    (companion : HasCompanion curve f A r)
    {P Q : curve.Point}
    (left : P.x ≠ 0)
    (right : Q.x ≠ 0)
    (ne : P.y ^ 2 ≠ Q.y ^ 2) :
    Generic (f P.x) (f P.y) (f Q.x) (f Q.y) := by
  have x_ne : P.x ^ 2 ≠ Q.x ^ 2 := by
    intro same
    exact ne (Point.y_sq_eq_of_x_sq_eq same)
  have factors {s t : K} (different : s ^ 2 ≠ t ^ 2) :
      f s + f t ≠ 0 ∧ f s - f t ≠ 0 := by
    rw [← map_add, ← map_sub, map_ne_zero, map_ne_zero]
    constructor <;>
      (intro zero
       apply different)
    · linear_combination (s - t) * zero
    · linear_combination (s + t) * zero
  have first :=
    companion.finite_of_ne_zero (P.solves.map f) ((map_ne_zero f).2 left)
  have second :=
    companion.finite_of_ne_zero (Q.solves.map f) ((map_ne_zero f).2 right)
  exact
    { x₁_ne_zero := (map_ne_zero f).2 left
      x₂_ne_zero := (map_ne_zero f).2 right
      finite₁ := left_ne_zero_of_mul first
      finite₂ := left_ne_zero_of_mul second
      x_add_ne_zero := (factors x_ne).1
      x_sub_ne_zero := (factors x_ne.symm).2
      y_add_ne_zero := (factors ne).1
      y_sub_ne_zero := (factors ne).2 }

/-! ## The map into the points of the companion -/

section

variable
  [DecidableEq L]
  (companion : HasCompanion curve f A r)

/-- The image of a point on the Montgomery curve. -/
def image (P : curve.Point) : (MontgomeryCurve.curve A).Point :=
  if finite : 1 - f P.y = 0 then
    0
  else
    .some (abscissa (f P.y))
      (ordinate (f curve.a) (f curve.d) r (f P.x) (f P.y))
      (companion.smooth.nonsingular
        (companion.ordinate_sq (P.solves.map f) finite))

@[simp]
theorem image_zero :
    image companion 0 = 0 := by
  have infinite : 1 - f (0 : curve.Point).y = 0 := by
    rw [Point.zero_y, map_one, sub_self]
  rw [image, dif_pos infinite]

theorem image_of_finite
    {P : curve.Point}
    (finite : 1 - f P.y ≠ 0) :
    ∃ h,
      image companion P =
        .some (abscissa (f P.y))
          (ordinate (f curve.a) (f curve.d) r (f P.x) (f P.y)) h :=
  ⟨_, dif_neg finite⟩

theorem image_orderTwo :
    ∃ h, image companion Point.orderTwo = .some 0 0 h := by
  have finite : 1 - f (Point.orderTwo : curve.Point).y ≠ 0 := by
    rw [Point.orderTwo_y, map_neg, map_one, sub_neg_eq_add, one_add_one_eq_two]
    exact companion.two_ne_zero
  simpa [abscissa, ordinate] using image_of_finite companion finite

/-- Opposite points have opposite images. -/
theorem image_neg
    (P : curve.Point) :
    image companion (-P) = -image companion P := by
  by_cases infinite : 1 - f P.y = 0
  · have opposite : 1 - f (-P).y = 0 := infinite
    rw [image, dif_pos opposite, image, dif_pos infinite, neg_zero]
  · rcases image_of_finite companion infinite with ⟨h, image_eq⟩
    rcases image_of_finite companion (P := -P) infinite with ⟨h', image_eq'⟩
    rw [image_eq, image_eq', WeierstrassCurve.Affine.Point.neg_some,
      WeierstrassCurve.Affine.Point.some.injEq, MontgomeryCurve.negY_eq]
    refine ⟨rfl, ?_⟩
    rw [Point.neg_x, Point.neg_y, map_neg, ordinate, ordinate]
    ring

theorem image_orderTwo_add_self :
    image companion (Point.orderTwo + Point.orderTwo) =
      image companion Point.orderTwo + image companion Point.orderTwo := by
  have sum : (Point.orderTwo + Point.orderTwo : curve.Point) = 0 := by
    apply Point.ext <;> simp
  rcases image_orderTwo companion with ⟨h, image_eq⟩
  rw [sum, image_zero, image_eq, MontgomeryCurve.double_of_eq_zero h rfl]

/-- The image of a sum with the point of order two. -/
theorem image_add_orderTwo
    (P : curve.Point) :
    image companion (P + Point.orderTwo) =
      image companion P + image companion Point.orderTwo := by
  by_cases zero : P.x = 0
  · rcases Point.eq_of_x_eq_zero zero with rfl | rfl
    · rw [Point.zero_sum, image_zero, zero_add]
    · exact image_orderTwo_add_self companion
  · have solves := P.solves.map f
    have nonzero : f P.x ≠ 0 := (map_ne_zero f).2 zero
    have order := companion.finite_of_ne_zero solves nonzero
    have finite := left_ne_zero_of_mul order
    have opposite : 1 - f (P + Point.orderTwo).y ≠ 0 := by
      rw [Point.add_orderTwo_y, map_neg, sub_neg_eq_add]
      exact right_ne_zero_of_mul order
    have abscissa_ne_zero : abscissa (f P.y) ≠ 0 :=
      div_ne_zero (right_ne_zero_of_mul order) finite
    rcases companion.image_opposite solves nonzero with
      ⟨abscissa_eq, ordinate_eq⟩
    rw [← map_neg f P.y, ← Point.add_orderTwo_y] at abscissa_eq ordinate_eq
    rw [← map_neg f P.x, ← Point.add_orderTwo_x] at ordinate_eq
    rcases image_of_finite companion finite with ⟨h, image_eq⟩
    rcases image_orderTwo companion with ⟨h', image_eq'⟩
    rcases image_of_finite companion opposite with ⟨h'', image_eq''⟩
    rw [image_eq, image_eq', image_eq'']
    symm
    apply MontgomeryCurve.add_of_chord h h' h'' abscissa_ne_zero _ abscissa_eq
      ordinate_eq
    rw [solves.ordinate_eq finite nonzero]
    ring

/-- The image of a double. -/
theorem image_add_self
    (P : curve.Point) :
    image companion (P + P) = image companion P + image companion P := by
  by_cases zero : P.x = 0
  · rcases Point.eq_of_x_eq_zero zero with rfl | rfl
    · rw [Point.zero_sum, image_zero, zero_add]
    · exact image_orderTwo_add_self companion
  · have solves := P.solves.map f
    have nonzero : f P.x ≠ 0 := (map_ne_zero f).2 zero
    have order := companion.finite_of_ne_zero solves nonzero
    have finite := left_ne_zero_of_mul order
    have opposite := right_ne_zero_of_mul order
    have tangent :=
      tangentSlope_mul solves companion.two_ne_zero nonzero finite opposite
    rcases companion.image_double solves ((Point.isSum_add P P).map f)
        nonzero with
      ⟨finite', abscissa_eq, ordinate_eq⟩
    rcases image_of_finite companion finite with ⟨h, image_eq⟩
    rcases image_of_finite companion finite' with ⟨h', image_eq'⟩
    rw [image_eq, image_eq']
    symm
    apply MontgomeryCurve.double_of_tangent h h' _ _ abscissa_eq ordinate_eq
    · rw [solves.ordinate_eq finite nonzero]
      exact
        mul_ne_zero companion.two_ne_zero
          (mul_ne_zero companion.factor_ne_zero
            (div_ne_zero (div_ne_zero opposite finite) nonzero))
    · rw [solves.ordinate_eq finite nonzero]
      apply mul_left_cancel₀ companion.a_sub_d_ne_zero
      linear_combination
        2 * tangentSlope (f curve.a) (f curve.d) (f P.x) (f P.y) *
            (abscissa (f P.y) / f P.x) * companion.scale +
          tangent - 2 * abscissa (f P.y) * companion.coefficient

theorem image_add_of_ne
    {P Q : curve.Point}
    (left : P.x ≠ 0)
    (right : Q.x ≠ 0)
    (ne : P.y ^ 2 ≠ Q.y ^ 2) :
    image companion (P + Q) = image companion P + image companion Q := by
  have generic := generic_of_ne companion left right ne
  have first := P.solves.map f
  have second := Q.solves.map f
  rcases generic.image_sum companion first second ((P + Q).solves.map f)
      ((Point.isSum_add P Q).map f) with
    ⟨finite, abscissa_eq, ordinate_eq⟩
  have chord := generic.chordSlope_mul companion.two_ne_zero
  rcases image_of_finite companion generic.finite₁ with ⟨h, image_eq⟩
  rcases image_of_finite companion generic.finite₂ with ⟨h', image_eq'⟩
  rcases image_of_finite companion finite with ⟨h'', image_eq''⟩
  rw [image_eq, image_eq', image_eq'']
  symm
  apply MontgomeryCurve.add_of_chord h h' h'' _ _ abscissa_eq ordinate_eq
  · intro same
    exact
      sub_ne_zero.1 generic.y_sub_ne_zero
        (companion.abscissa_injective generic.finite₁ generic.finite₂ same)
  · rw [first.ordinate_eq generic.finite₁ generic.x₁_ne_zero,
      second.ordinate_eq generic.finite₂ generic.x₂_ne_zero]
    linear_combination r * chord

/-- Sums have the sums of the images as images. -/
theorem image_add
    (P Q : curve.Point) :
    image companion (P + Q) = image companion P + image companion Q := by
  by_cases left : P.x = 0
  · rcases Point.eq_of_x_eq_zero left with rfl | rfl
    · rw [Point.zero_sum, image_zero, zero_add]
    · rw [Point.sum_comm, image_add_orderTwo, add_comm]
  by_cases right : Q.x = 0
  · rcases Point.eq_of_x_eq_zero right with rfl | rfl
    · rw [Point.sum_comm, Point.zero_sum, image_zero, add_zero]
    · exact image_add_orderTwo companion P
  by_cases same : P.y ^ 2 = Q.y ^ 2
  · have opposite : P + -P = 0 := by
      rw [Point.sum_comm, Point.neg_sum_self]
    rcases Point.eq_of_y_sq_eq same with (equal | rfl) | rfl | rfl
    · rw [equal]
      exact image_add_self companion P
    · rw [opposite, image_zero, image_neg, add_neg_cancel]
    · rw [Point.sum_orderTwo_assoc, image_add_orderTwo, image_add_self,
        image_add_orderTwo, add_assoc]
    · rw [Point.sum_orderTwo_assoc, opposite, Point.zero_sum,
        image_add_orderTwo, image_neg, add_neg_cancel_left]
  · exact image_add_of_ne companion left right same

theorem image_injective :
    Function.Injective (image companion) := by
  intro P Q same
  by_cases left : 1 - f P.y = 0 <;> by_cases right : 1 - f Q.y = 0
  · rw [eq_zero_of_infinite left, eq_zero_of_infinite right]
  · rcases image_of_finite companion right with ⟨h, image_eq⟩
    rw [eq_zero_of_infinite left, image_zero, image_eq] at same
    exact absurd same.symm (WeierstrassCurve.Affine.Point.some_ne_zero h)
  · rcases image_of_finite companion left with ⟨h, image_eq⟩
    rw [eq_zero_of_infinite right, image_zero, image_eq] at same
    exact absurd same (WeierstrassCurve.Affine.Point.some_ne_zero h)
  · rcases image_of_finite companion left with ⟨h, image_eq⟩
    rcases image_of_finite companion right with ⟨h', image_eq'⟩
    rw [image_eq, image_eq', WeierstrassCurve.Affine.Point.some.injEq] at same
    have y_eq := companion.abscissa_injective left right same.1
    have factor : f curve.a - f curve.d * f P.y ^ 2 ≠ 0 := by
      rw [← map_pow, ← map_mul, ← map_sub]
      exact (map_ne_zero f).2 P.a_sub_d_mul_ne_zero
    apply Point.ext
    · apply f.injective
      have ordinate_eq := same.2
      rw [ordinate, ordinate, ← y_eq,
        div_left_inj' (pow_ne_zero 2 left)] at ordinate_eq
      exact
        mul_left_cancel₀ companion.factor_ne_zero
          (mul_right_cancel₀ factor ordinate_eq)
    · exact f.injective y_eq

end

/-! ## The group -/

instance : AddCommGroup curve.Point where
  add_assoc := by
    intro P Q R
    classical
    rcases exists_companion curve (algebraMap K (AlgebraicClosure K)) with
      ⟨A, r, companion⟩
    apply image_injective companion
    rw [image_add, image_add, image_add, image_add, add_assoc]
  zero_add := Point.zero_sum
  add_zero P := by
    rw [Point.sum_comm]
    exact Point.zero_sum P
  neg_add_cancel := Point.neg_sum_self
  add_comm := Point.sum_comm
  nsmul := nsmulRec
  zsmul := zsmulRec

section

variable
  [DecidableEq L]
  (companion : HasCompanion curve f A r)

/-- Multiples have the multiples of the image as images. -/
theorem image_nsmul
    (P : curve.Point)
    (n : Nat) :
    image companion (n • P) = n • image companion P :=
  map_nsmul (AddMonoidHom.mk' (image companion) (image_add companion)) n P

/-- Only the neutral point goes to infinity. -/
theorem image_eq_zero_iff
    {P : curve.Point} :
    image companion P = 0 ↔ P.y = 1 := by
  rw [(image_injective companion).eq_iff' (image_zero companion),
    Point.eq_zero_iff_y_eq_one]

end

end

end ModularLadder.EdwardsCurve
