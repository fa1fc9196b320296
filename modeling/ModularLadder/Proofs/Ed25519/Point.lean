import Mathlib
import ModularLadder.Proofs.Ed25519.Curve
import ModularLadder.Proofs.Field25519.Encoding
import ModularLadder.Proofs.Field25519.Inverse

/-!
# Points on Ed25519 in the group of the curve

Extended coordinates `(X : Y : Z : T)` represent the point `(x, y)` of the
curve if `Z` is not zero, `X = x * Z`, `Y = y * Z` and `T = x * y * Z`.  A point
whose limbs are reduced and whose residues represent a point of the curve
stands for that point.

The formulas for sums and doubles end with two fractions, whose denominators
are those of the law of addition up to a common factor.  Hence they hold
without exception, and every operation on points that stand for points of the
curve is the operation of the group.  In a checked form the operations verify
the bounds on all elements on their way and that nothing overflows; they pass
these checks.  Two points compare as equal exactly if they stand for the same
point.
-/

namespace ModularLadder.Ed25519

open EdwardsCurve (Solves)
open Field25519 (Element Residue prime)

/-! ## Extended coordinates -/

/-- Extended coordinates of a point of the curve. -/
structure Represents
    (x y z t : Residue)
    (P : curve.Point) :
    Prop where
  z_ne_zero : z ≠ 0
  x_eq : x = P.x * z
  y_eq : y = P.y * z
  t_eq : t = P.x * P.y * z

/-- Two fractions that are the coordinates of a point of the curve. -/
structure Fractions
    (e f g h : Residue)
    (P : curve.Point) :
    Prop where
  f_ne_zero : f ≠ 0
  g_ne_zero : g ≠ 0
  e_eq : e = P.x * g
  h_eq : h = P.y * f

section

variable
  {x y z t x' y' z' t' e f g h : Residue}
  {P Q : curve.Point}

theorem Fractions.represents
    (fractions : Fractions e f g h P) :
    Represents (e * f) (g * h) (f * g) (e * h) P where
  z_ne_zero := mul_ne_zero fractions.f_ne_zero fractions.g_ne_zero
  x_eq := by
    rw [fractions.e_eq]
    ring
  y_eq := by
    rw [fractions.h_eq]
    ring
  t_eq := by
    rw [fractions.e_eq, fractions.h_eq]
    ring

/-- The fractions of the formula for sums. -/
theorem Represents.sum_fractions
    (left : Represents x y z t P)
    (right : Represents x' y' z' t' Q) :
    Fractions
      ((y + x) * (y' + x') - (y - x) * (y' - x'))
      (z * z' * 2 - t * (2 * coefficient) * t')
      (z * z' * 2 + t * (2 * coefficient) * t')
      ((y + x) * (y' + x') + (y - x) * (y' - x'))
      (P + Q) := by
  rcases left with ⟨z_ne_zero, rfl, rfl, rfl⟩
  rcases right with ⟨z'_ne_zero, rfl, rfl, rfl⟩
  have factor : 2 * z * z' ≠ 0 :=
    mul_ne_zero (mul_ne_zero two_ne_zero z_ne_zero) z'_ne_zero
  have plus := EdwardsCurve.Point.one_add_cross_ne_zero P Q
  have minus := EdwardsCurve.Point.one_sub_cross_ne_zero P Q
  have x_mul := EdwardsCurve.Point.add_x_mul P Q
  have y_mul := EdwardsCurve.Point.add_y_mul P Q
  rw [EdwardsCurve.Point.cross, curve_d] at plus minus x_mul y_mul
  rw [curve_a] at y_mul
  constructor
  · convert mul_ne_zero factor minus using 1
    ring
  · convert mul_ne_zero factor plus using 1
    ring
  · linear_combination -(2 * z * z') * x_mul
  · linear_combination -(2 * z * z') * y_mul

/--
The fractions of the formula for doubles.  On the curve their denominators are
known without the coefficient.
-/
theorem Represents.double_fractions
    (point : Represents x y z t P) :
    Fractions
      ((x + y) ^ 2 - x ^ 2 - y ^ 2)
      (-x ^ 2 + y ^ 2 - z ^ 2 * 2)
      (-x ^ 2 + y ^ 2)
      (-x ^ 2 - y ^ 2)
      (P + P) := by
  rcases point with ⟨z_ne_zero, rfl, rfl, rfl⟩
  have factor : z ^ 2 ≠ 0 := pow_ne_zero 2 z_ne_zero
  have plus := EdwardsCurve.Point.one_add_cross_ne_zero P P
  have minus := EdwardsCurve.Point.one_sub_cross_ne_zero P P
  have x_mul := EdwardsCurve.Point.add_x_mul P P
  have y_mul := EdwardsCurve.Point.add_y_mul P P
  have equation := P.solves
  rw [EdwardsCurve.Point.cross, curve_d] at plus minus x_mul y_mul
  rw [Solves, curve_a, curve_d] at equation
  rw [curve_a] at y_mul
  have g_eq :
      -(P.x * z) ^ 2 + (P.y * z) ^ 2 =
        z ^ 2 * (1 + coefficient * P.x * P.x * P.y * P.y) := by
    linear_combination z ^ 2 * equation
  have f_eq :
      -(P.x * z) ^ 2 + (P.y * z) ^ 2 - z ^ 2 * 2 =
        -(z ^ 2 * (1 - coefficient * P.x * P.x * P.y * P.y)) := by
    linear_combination z ^ 2 * equation
  rw [f_eq, g_eq]
  constructor
  · exact neg_ne_zero.2 (mul_ne_zero factor minus)
  · exact mul_ne_zero factor plus
  · linear_combination -z ^ 2 * x_mul
  · linear_combination z ^ 2 * y_mul

theorem Represents.negation
    (point : Represents x y z t P) :
    Represents (-x) y z (-t) (-P) where
  z_ne_zero := point.z_ne_zero
  x_eq := by
    rw [point.x_eq, EdwardsCurve.Point.neg_x]
    ring
  y_eq := point.y_eq
  t_eq := by
    rw [point.t_eq, EdwardsCurve.Point.neg_x, EdwardsCurve.Point.neg_y]
    ring

/-- Cross products tell whether coordinates represent the same point. -/
theorem Represents.eq_iff
    (left : Represents x y z t P)
    (right : Represents x' y' z' t' Q) :
    x * z' = x' * z ∧ y * z' = y' * z ↔ P = Q := by
  rcases left with ⟨z_ne_zero, rfl, rfl, rfl⟩
  rcases right with ⟨z'_ne_zero, rfl, rfl, rfl⟩
  exact EdwardsCurve.Point.cross_products_iff z_ne_zero z'_ne_zero

/-- Coordinates that keep their ratios represent a point of the curve. -/
theorem Represents.exists_iff :
    (∃ P : curve.Point, Represents x y z t P) ↔
      z ≠ 0 ∧
        x * y = z * t ∧
        Solves (-1) coefficient (x / z) (y / z) := by
  constructor
  · rintro ⟨P, z_ne_zero, rfl, rfl, rfl⟩
    refine ⟨z_ne_zero, by ring, ?_⟩
    rw [mul_div_cancel_right₀ _ z_ne_zero, mul_div_cancel_right₀ _ z_ne_zero]
    exact P.solves
  · rintro ⟨z_ne_zero, product, solves⟩
    refine
      ⟨{ x := x / z
         y := y / z
         solves := solves },
        z_ne_zero, (div_mul_cancel₀ x z_ne_zero).symm,
        (div_mul_cancel₀ y z_ne_zero).symm, ?_⟩
    apply mul_left_cancel₀ z_ne_zero
    rw [← product]
    field_simp

end

/-! ## Points that stand for points of the curve -/

/-- A point of reduced limbs whose residues represent a point of the curve. -/
structure Point.Stands
    (point : Point)
    (P : curve.Point) :
    Prop where
  x_reduced : point.x.Reduced
  y_reduced : point.y.Reduced
  z_reduced : point.z.Reduced
  t_reduced : point.t.Reduced
  represents :
    Represents point.x.residue point.y.residue point.z.residue
      point.t.residue P

/-- The result of an operation: checked, and standing for the point meant. -/
structure Point.Computes
    (checked : Option Point)
    (result : Point)
    (P : curve.Point) :
    Prop where
  checked_eq : checked = some result
  stands : result.Stands P

/-- Whether two points compare as equal. -/
def Point.Same (left right : Point) : Prop :=
  (left.eq right).isSet = true

namespace Point

/-! ## Checked formulas -/

/-- The checked form of `ofFractions`. -/
def ofFractions? (e f g h : Element) : Option Point := do
  let x ← e.mul? f
  let y ← g.mul? h
  let z ← f.mul? g
  let t ← e.mul? h
  some { x, y, z, t }

/-- The checked form of `add`. -/
def add? (left right : Point) : Option Point := do
  let leftDifference ← left.y.sub? left.x
  let rightDifference ← right.y.sub? right.x
  let a ← leftDifference.mul? rightDifference
  let leftSum ← left.y.add? left.x
  let rightSum ← right.y.add? right.x
  let b ← leftSum.mul? rightSum
  let scaled ← left.t.mul? twiceD
  let c ← scaled.mul? right.t
  let product ← left.z.mul? right.z
  let d ← product.mulSmall? 2
  let e ← b.sub? a
  let f ← d.sub? c
  let g ← d.add? c
  let h ← b.add? a
  ofFractions? e f g h

/-- The checked form of `double`. -/
def double? (point : Point) : Option Point := do
  let a ← point.x.square?
  let b ← point.y.square?
  let square ← point.z.square?
  let c ← square.mulSmall? 2
  let d ← Element.zero.sub? a
  let sum ← point.x.add? point.y
  let sumSquare ← sum.square?
  let difference ← sumSquare.sub? a
  let e ← difference.sub? b
  let g ← d.add? b
  let f ← g.sub? c
  let h ← d.sub? b
  ofFractions? e f g h

/-- The checked form of `neg`. -/
def neg? (point : Point) : Option Point := do
  let x ← Element.zero.sub? point.x
  let t ← Element.zero.sub? point.t
  some { point with x := x, t := t }

/-! ## Operations of the group -/

variable
  {point left right : Point}
  {P Q : curve.Point}

theorem stands_of_coordinates
    {x y z t : Element}
    (xReduced : x.Reduced)
    (yReduced : y.Reduced)
    (zReduced : z.Reduced)
    (tReduced : t.Reduced)
    (represents : Represents x.residue y.residue z.residue t.residue P) :
    Stands { x, y, z, t } P :=
  ⟨xReduced, yReduced, zReduced, tReduced, represents⟩

/-- Twice an element. -/
theorem twice_computes
    {x : Element}
    (loose : x.Loose) :
    Field25519.Computes (x.mulSmall? 2) (x.mulSmall 2) (x.residue * 2) := by
  have computes := Element.mulSmall_computes loose 2
  have two : ((2 : UInt32).toNat : Residue) = 2 :=
    Nat.cast_ofNat
  rw [two] at computes
  exact computes

theorem stands_neutral :
    neutral.Stands 0 where
  x_reduced := Element.reduced_zero
  y_reduced := Element.reduced_one
  z_reduced := Element.reduced_one
  t_reduced := Element.reduced_zero
  represents := by
    constructor <;> simp [neutral]

theorem stands_ofAffine
    {x y : Element}
    (xReduced : x.Reduced)
    (yReduced : y.Reduced)
    (x_eq : x.residue = P.x)
    (y_eq : y.residue = P.y) :
    (ofAffine x y).Stands P := by
  have product := Element.mul_computes xReduced.loose yReduced.loose
  refine
    ⟨xReduced, yReduced, Element.reduced_one, product.reduced, ?_, ?_, ?_, ?_⟩
  · simp [ofAffine]
  · simp [ofAffine, x_eq]
  · simp [ofAffine, y_eq]
  · simp [ofAffine, product.residue_eq, x_eq, y_eq]

/-- Products of loose fractions stand for the point. -/
theorem ofFractions_computes
    {e f g h : Element}
    (eLoose : e.Loose)
    (fLoose : f.Loose)
    (gLoose : g.Loose)
    (hLoose : h.Loose)
    (fractions : Fractions e.residue f.residue g.residue h.residue P) :
    Computes (ofFractions? e f g h) (ofFractions e f g h) P := by
  have x := Element.mul_computes eLoose fLoose
  have y := Element.mul_computes gLoose hLoose
  have z := Element.mul_computes fLoose gLoose
  have t := Element.mul_computes eLoose hLoose
  constructor
  · rw [ofFractions?, x.bind, y.bind, z.bind, t.bind]
    rfl
  · apply stands_of_coordinates x.reduced y.reduced z.reduced t.reduced
    rw [x.residue_eq, y.residue_eq, z.residue_eq, t.residue_eq]
    exact fractions.represents

/-- The sum stands for the sum, whatever the points are. -/
theorem Stands.add
    (first : left.Stands P)
    (second : right.Stands Q) :
    Computes (left.add? right) (left.add right) (P + Q) := by
  have reducedD : twiceD.Reduced := by
    decide
  have leftDifference :=
    Element.sub_computes first.y_reduced.loose first.x_reduced.loose
  have rightDifference :=
    Element.sub_computes second.y_reduced.loose second.x_reduced.loose
  have a := Element.mul_computes leftDifference.loose rightDifference.loose
  rw [leftDifference.residue_eq, rightDifference.residue_eq] at a
  rcases Element.add_checked first.y_reduced first.x_reduced with
    ⟨leftSum_eq, leftLoose, leftSum⟩
  rcases Element.add_checked second.y_reduced second.x_reduced with
    ⟨rightSum_eq, rightLoose, rightSum⟩
  have b := Element.mul_computes leftLoose rightLoose
  rw [leftSum, rightSum] at b
  have scaled := Element.mul_computes first.t_reduced.loose reducedD.loose
  have c := Element.mul_computes scaled.loose second.t_reduced.loose
  rw [scaled.residue_eq, residue_twiceD] at c
  have product :=
    Element.mul_computes first.z_reduced.loose second.z_reduced.loose
  have d := twice_computes product.loose
  rw [product.residue_eq] at d
  have e := Element.sub_computes b.loose a.loose
  have f := Element.sub_computes d.loose c.loose
  rcases Element.add_checked d.reduced c.reduced with ⟨g_eq, gLoose, g⟩
  rcases Element.add_checked b.reduced a.reduced with ⟨h_eq, hLoose, h⟩
  rw [add?, leftDifference.bind, rightDifference.bind, a.bind,
    Field25519.bind_result leftSum_eq, Field25519.bind_result rightSum_eq,
    b.bind, scaled.bind, c.bind, product.bind, d.bind, e.bind, f.bind,
    Field25519.bind_result g_eq, Field25519.bind_result h_eq]
  apply ofFractions_computes e.loose f.loose gLoose hLoose
  rw [e.residue_eq, f.residue_eq, g, h, a.residue_eq, b.residue_eq,
    c.residue_eq, d.residue_eq]
  exact first.represents.sum_fractions second.represents

/-- The double stands for the sum of the point with itself. -/
theorem Stands.double
    (stands : point.Stands P) :
    Computes point.double? point.double (P + P) := by
  have a := Element.square_computes stands.x_reduced.loose
  have b := Element.square_computes stands.y_reduced.loose
  have square := Element.square_computes stands.z_reduced.loose
  have c := twice_computes square.loose
  rw [square.residue_eq] at c
  have d := Element.neg_computes a.loose
  rw [a.residue_eq] at d
  rcases Element.add_checked stands.x_reduced stands.y_reduced with
    ⟨sum_eq, sumLoose, sum⟩
  have sumSquare := Element.square_computes sumLoose
  rw [sum] at sumSquare
  have difference := Element.sub_computes sumSquare.loose a.loose
  have e := Element.sub_computes difference.loose b.loose
  rw [difference.residue_eq, sumSquare.residue_eq, a.residue_eq,
    b.residue_eq] at e
  rcases Element.add_checked d.reduced b.reduced with ⟨g_eq, gLoose, g⟩
  rw [d.residue_eq, b.residue_eq] at g
  have f := Element.sub_computes gLoose c.loose
  rw [g, c.residue_eq] at f
  have h := Element.sub_computes d.loose b.loose
  rw [d.residue_eq, b.residue_eq] at h
  rw [double?, a.bind, b.bind, square.bind, c.bind, d.bind,
    Field25519.bind_result sum_eq, sumSquare.bind, difference.bind, e.bind,
    Field25519.bind_result g_eq, f.bind, h.bind]
  apply ofFractions_computes e.loose f.loose gLoose h.loose
  rw [e.residue_eq, f.residue_eq, g, h.residue_eq]
  exact stands.represents.double_fractions

/-- The negation stands for the opposite point. -/
theorem Stands.neg
    (stands : point.Stands P) :
    Computes point.neg? point.neg (-P) := by
  have x := Element.neg_computes stands.x_reduced.loose
  have t := Element.neg_computes stands.t_reduced.loose
  constructor
  · rw [neg?, x.bind, t.bind]
    rfl
  · apply stands_of_coordinates x.reduced stands.y_reduced stands.z_reduced
      t.reduced
    rw [x.residue_eq, t.residue_eq]
    exact stands.represents.negation

/-! ## Comparison -/

/-- Points are exchanged by a truth value. -/
@[simp]
theorem swapIf_ofBool
    (left right : Point)
    (condition : Bool) :
    left.swapIf right (Choice.ofBool condition) =
      if condition then (right, left) else (left, right) := by
  simp only [swapIf, Element.swapIf_ofBool]
  cases condition <;> rfl

/-- The comparison chooses whether both stand for the same point. -/
theorem Stands.eq_eq
    (first : left.Stands P)
    (second : right.Stands Q) :
    left.eq right = Choice.ofBool (decide (P = Q)) := by
  have x :=
    Element.mul_computes first.x_reduced.loose second.z_reduced.loose
  have x' :=
    Element.mul_computes second.x_reduced.loose first.z_reduced.loose
  have y :=
    Element.mul_computes first.y_reduced.loose second.z_reduced.loose
  have y' :=
    Element.mul_computes second.y_reduced.loose first.z_reduced.loose
  rw [eq, Element.eq_eq, Element.eq_eq, Choice.and_ofBool,
    ← Bool.decide_and, x.residue_eq, x'.residue_eq, y.residue_eq,
    y'.residue_eq]
  congr 1
  apply decide_eq_decide.2
  exact first.represents.eq_iff second.represents

/-- Points compare as equal exactly if they stand for the same point. -/
theorem Stands.same_iff
    (first : left.Stands P)
    (second : right.Stands Q) :
    Same left right ↔ P = Q := by
  rw [Same, first.eq_eq second, Choice.isSet_ofBool, decide_eq_true_eq]

theorem Stands.same
    (first : left.Stands P)
    (second : right.Stands P) :
    Same left right :=
  (first.same_iff second).2 rfl

/-! ## Reading and writing -/

/-- The affine coordinates that are written are those of the point. -/
theorem Stands.toBytes_eq
    (stands : point.Stands P) :
    point.toBytes =
      (Bytes.ofNatBigEndian 32 P.x.val, Bytes.ofNatBigEndian 32 P.y.val) := by
  have inverse := Element.inverse_computes stands.z_reduced.loose
  have x := Element.mul_computes stands.x_reduced.loose inverse.loose
  have y := Element.mul_computes stands.y_reduced.loose inverse.loose
  have coordinate (u : Residue) :
      u * point.z.residue * point.z.residue⁻¹ = u :=
    mul_inv_cancel_right₀ stands.represents.z_ne_zero u
  rw [inverse.residue_eq, Field25519.pow_prime_sub_two] at x y
  rw [stands.represents.x_eq, coordinate] at x
  rw [stands.represents.y_eq, coordinate] at y
  rw [toBytes, Element.toBigEndian_eq, Element.toBigEndian_eq, x.residue_eq,
    y.residue_eq]

/-- The check of affine coordinates is the equation of the curve. -/
theorem isSet_onCurve
    {x y : Element}
    (xReduced : x.Reduced)
    (yReduced : y.Reduced) :
    (onCurve x y).isSet =
      decide (Solves (-1) coefficient x.residue y.residue) := by
  have reducedD : d.Reduced := by
    decide
  have xx := Element.square_computes xReduced.loose
  have yy := Element.square_computes yReduced.loose
  have left := Element.sub_computes yy.loose xx.loose
  rw [xx.residue_eq, yy.residue_eq] at left
  have product := Element.mul_computes xx.loose yy.loose
  have scaled := Element.mul_computes reducedD.loose product.loose
  rw [product.residue_eq, xx.residue_eq, yy.residue_eq, residue_d] at scaled
  rcases Element.add_checked scaled.reduced Element.reduced_one with
    ⟨-, -, right⟩
  rw [scaled.residue_eq, Element.residue_one] at right
  simp only [onCurve, Element.eq_eq, Choice.isSet_ofBool, left.residue_eq,
    right]
  apply decide_eq_decide.2
  rw [Solves]
  constructor <;> intro equation <;> linear_combination equation

/-- Canonical coordinates are read as the numbers they are. -/
theorem ofCanonical_coordinate
    {bytes : Bytes}
    (less : bytes.bigEndianValue < prime) :
    (Element.ofBigEndian bytes).Reduced ∧
      (Element.ofBigEndian bytes).residue =
        (bytes.bigEndianValue : Residue) := by
  refine ⟨(Element.nominal_ofLittleEndian _).reduced, ?_⟩
  rw [← Element.val_residue_ofBigEndian less, ZMod.natCast_zmod_val]

/-- Which affine coordinates are accepted, and how others are refused. -/
theorem ofBytes_eq
    (x y : Bytes) :
    ofBytes x y =
      if x.length = 32 ∧ y.length = 32 ∧
          x.bigEndianValue < prime ∧ y.bigEndianValue < prime then
        if Solves (-1) coefficient (x.bigEndianValue : Residue)
            (y.bigEndianValue : Residue) then
          .ok (ofAffine (Element.ofBigEndian x) (Element.ofBigEndian y))
        else
          .error .pointNotOnCurve
      else
        .error .value := by
  rw [ofBytes, Element.byteLength]
  by_cases lengths : x.length = 32 ∧ y.length = 32
  · have accepted : ¬(x.length ≠ 32 ∨ y.length ≠ 32) := by
      rw [not_or, not_ne_iff, not_ne_iff]
      exact lengths
    rw [if_neg accepted, Element.ofCanonical?_eq x lengths.1,
      Element.ofCanonical?_eq y lengths.2]
    by_cases xLess : x.bigEndianValue < prime <;>
      by_cases yLess : y.bigEndianValue < prime <;>
      simp only [lengths, xLess, yLess, and_self, and_true, and_false,
        if_true, if_false]
    · rcases ofCanonical_coordinate xLess with ⟨xReduced, x_eq⟩
      rcases ofCanonical_coordinate yLess with ⟨yReduced, y_eq⟩
      simp only [isSet_onCurve xReduced yReduced, decide_eq_true_eq, x_eq,
        y_eq]
      rfl
    all_goals rfl
  · have refused : x.length ≠ 32 ∨ y.length ≠ 32 := by
      rw [← not_and_or]
      exact lengths
    have notAll :
        ¬(x.length = 32 ∧ y.length = 32 ∧
          x.bigEndianValue < prime ∧ y.bigEndianValue < prime) := by
      rintro ⟨xLength, yLength, -, -⟩
      exact lengths ⟨xLength, yLength⟩
    rw [if_pos refused, if_neg notAll]
    rfl

/-- A point of the curve, read from the numbers of its coordinates. -/
theorem stands_ofBigEndian
    {x y : Bytes}
    (xLess : x.bigEndianValue < prime)
    (yLess : y.bigEndianValue < prime)
    (x_eq : (x.bigEndianValue : Residue) = P.x)
    (y_eq : (y.bigEndianValue : Residue) = P.y) :
    (ofAffine (Element.ofBigEndian x) (Element.ofBigEndian y)).Stands P := by
  rcases ofCanonical_coordinate xLess with ⟨xReduced, x_residue⟩
  rcases ofCanonical_coordinate yLess with ⟨yReduced, y_residue⟩
  exact
    stands_ofAffine xReduced yReduced (x_residue.trans x_eq)
      (y_residue.trans y_eq)

/-- Whatever is accepted stands for a point of the curve. -/
theorem exists_stands_of_ofBytes
    {x y : Bytes}
    (accepted : ofBytes x y = .ok point) :
    ∃ P, point.Stands P := by
  rw [ofBytes_eq] at accepted
  split at accepted
  · rename_i canonical
    split at accepted
    · rename_i solves
      rw [← Except.ok.inj accepted]
      exact
        ⟨{ x := x.bigEndianValue
           y := y.bigEndianValue
           solves := solves },
          stands_ofBigEndian canonical.2.2.1 canonical.2.2.2 rfl rfl⟩
    · exact nomatch accepted
  · exact nomatch accepted

/-- Points are written alike exactly if they stand for the same point. -/
theorem Stands.toBytes_eq_iff
    (first : left.Stands P)
    (second : right.Stands Q) :
    left.toBytes = right.toBytes ↔ P = Q := by
  rw [first.toBytes_eq, second.toBytes_eq, Prod.mk.injEq]
  constructor
  · rintro ⟨x, y⟩
    exact
      EdwardsCurve.Point.ext (Field25519.ofNatBigEndian_val_injective x)
        (Field25519.ofNatBigEndian_val_injective y)
  · rintro rfl
    exact ⟨rfl, rfl⟩

/-- The coordinates of every point of the curve are accepted. -/
theorem ofBytes_coordinates
    (P : curve.Point) :
    ∃ point,
      ofBytes (Bytes.ofNatBigEndian 32 P.x.val)
          (Bytes.ofNatBigEndian 32 P.y.val) =
        .ok point ∧
      point.Stands P := by
  have less (u : Residue) :
      (Bytes.ofNatBigEndian 32 u.val).bigEndianValue < prime := by
    simpa using ZMod.val_lt u
  have residue (u : Residue) :
      ((Bytes.ofNatBigEndian 32 u.val).bigEndianValue : Residue) = u := by
    simp
  refine
    ⟨_, ?_,
      stands_ofBigEndian (less P.x) (less P.y) (residue P.x) (residue P.y)⟩
  rw [ofBytes_eq, if_pos, if_pos]
  · rw [residue, residue]
    exact P.solves
  · exact ⟨by simp, by simp, less P.x, less P.y⟩

/-! ## The base point -/

/-- The base point, as an element of the group. -/
def basePoint : curve.Point where
  x := baseX.bigEndianValue
  y := baseY.bigEndianValue
  solves := by
    have equation :
        baseY.bigEndianValue ^ 2 ≡
          1 + baseX.bigEndianValue ^ 2 +
            d.value * baseX.bigEndianValue ^ 2 * baseY.bigEndianValue ^ 2
          [MOD prime] := by
      decide
    have residues := (ZMod.natCast_eq_natCast_iff _ _ _).2 equation
    push_cast at residues
    rw [← Element.residue, residue_d] at residues
    rw [Solves, curve_a, curve_d]
    linear_combination residues

theorem stands_base :
    base.Stands basePoint :=
  stands_ofBigEndian (by decide) (by decide) rfl rfl

end Point

end ModularLadder.Ed25519
