import Mathlib
import ModularLadder.Proofs.Ed448.Climb
import ModularLadder.Proofs.Ed448.InPlace
import ModularLadder.Proofs.PointComparison

/-!
# The points that programs on Ed448 meet

A point is reachable under a context if it is built from accepted coordinates,
the neutral element and the base point of the context by the operations on
points.  Every reachable point stands for a point of the curve, by induction
on how it is built, and what is true of the group becomes a property of all
reachable points:

* their coordinates are canonical, and the formulas are the law of addition,
  whatever the operands are;
* they form an abelian group, up to the comparison of points;
* multiplication by a scalar is repeated addition;
* they are compared by the bytes they are written by.

None of the operations fails between points of one context.
-/

namespace ModularLadder.Ed448.Point

open EdwardsCurve (Solves)
open Field448 (Proper Residue residue)

/-- The points that are built under a context by the operations on points. -/
inductive Reachable (context : CurveContext) : Point → Prop where
  | ofBytes
      {x y : Bytes}
      {point : Point}
      (accepted : Point.ofBytes context x y = .ok point) :
      Reachable context point
  | neutral : Reachable context (Point.neutral context)
  | base
      {point : Point}
      (accepted : Point.base context = .ok point) :
      Reachable context point
  | add
      {left right sum : Point}
      (leftReachable : Reachable context left)
      (rightReachable : Reachable context right)
      (added : left.add right = .ok sum) :
      Reachable context sum
  | double
      {point : Point}
      (reachable : Reachable context point) :
      Reachable context point.double
  | neg
      {point : Point}
      (reachable : Reachable context point) :
      Reachable context point.neg
  | scale
      {point : Point}
      (reachable : Reachable context point)
      (scalar : Bytes) :
      Reachable context (point.scale scalar)
  | copyFrom
      {point source copy : Point}
      (reachable : Reachable context point)
      (sourceReachable : Reachable context source)
      (copied : point.copyFrom source = .ok copy) :
      Reachable context copy

/-- Every reachable point stands for a point of the curve. -/
theorem Reachable.exists_stands
    {context : CurveContext}
    {point : Point}
    (sound : context.Sound)
    (reachable : Reachable context point) :
    ∃ P, point.Stands context P := by
  induction reachable with
  | ofBytes accepted => exact exists_stands_of_ofBytes sound accepted
  | neutral => exact ⟨0, stands_neutral sound⟩
  | base accepted => exact exists_stands_of_ofBytes sound accepted
  | add _ _ added first second =>
    rcases first with ⟨P, first⟩
    rcases second with ⟨Q, second⟩
    rcases first.add sound second with ⟨sum, sum_eq, stands⟩
    rw [added] at sum_eq
    cases sum_eq
    exact ⟨P + Q, stands⟩
  | double _ ih =>
    rcases ih with ⟨P, stands⟩
    exact ⟨P + P, stands.double sound⟩
  | neg _ ih =>
    rcases ih with ⟨P, stands⟩
    exact ⟨-P, stands.neg sound⟩
  | scale _ scalar ih =>
    rcases ih with ⟨P, stands⟩
    exact ⟨scalar.bigEndianValue • P, stands.scale sound scalar⟩
  | copyFrom _ _ copied first second =>
    rcases first with ⟨P, first⟩
    rcases second with ⟨Q, second⟩
    rcases first.copyFrom second with ⟨copy, copy_eq, stands⟩
    rw [copied] at copy_eq
    cases copy_eq
    exact ⟨Q, stands⟩

/-! ## Coordinates, sums and copies -/

/-- The affine x-coordinate. -/
def affineX (point : Point) : Residue :=
  residue point.coordinates.x / residue point.coordinates.z

/-- The affine y-coordinate. -/
def affineY (point : Point) : Residue :=
  residue point.coordinates.y / residue point.coordinates.z

/--
Any representation of a point of the curve under a context, whether it is
reachable or not.
-/
structure Valid (context : CurveContext) (point : Point) : Prop where
  curve_eq : point.curve = context
  x_proper : Proper point.coordinates.x
  y_proper : Proper point.coordinates.y
  z_proper : Proper point.coordinates.z
  z_ne_zero : residue point.coordinates.z ≠ 0
  equation :
    point.affineX ^ 2 + point.affineY ^ 2 =
      1 + coefficient * point.affineX ^ 2 * point.affineY ^ 2
  room : Workplace.room.holds point.workplace

/-- The law of addition for affine coordinates, with its denominators. -/
structure IsSum (left right sum : Point) : Prop where
  plus_ne_zero :
    1 + coefficient * left.affineX * right.affineX * left.affineY *
      right.affineY ≠ 0
  minus_ne_zero :
    1 - coefficient * left.affineX * right.affineX * left.affineY *
      right.affineY ≠ 0
  x_eq :
    sum.affineX =
      (left.affineX * right.affineY + left.affineY * right.affineX) /
        (1 + coefficient * left.affineX * right.affineX * left.affineY *
          right.affineY)
  y_eq :
    sum.affineY =
      (left.affineY * right.affineY - left.affineX * right.affineX) /
        (1 - coefficient * left.affineX * right.affineX * left.affineY *
          right.affineY)

/-- Copies of a point, added one after the other to the neutral element. -/
def sumOfCopies (point : Point) : (count : Nat) → Except Failure Point
  | 0 => .ok (Point.neutral point.curve)
  | count + 1 => do
    let sum ← point.sumOfCopies count
    sum.add point

/-- Both outcomes are points, which compare as equal. -/
def SameOutcome (first second : Except Failure Point) : Prop :=
  ∃ left right, first = .ok left ∧ second = .ok right ∧ Same left right

/-! ## Points that stand for points of the curve -/

section

variable
  {context : CurveContext}
  {point left right sum : Point}
  {P Q : CurvePoint}

theorem Stands.affineX_eq
    (stands : point.Stands context P) :
    point.affineX = P.x := by
  have represents := stands.coordinates.represents
  rw [affineX, represents.x_eq, mul_div_cancel_right₀ _ represents.z_ne_zero]

theorem Stands.affineY_eq
    (stands : point.Stands context P) :
    point.affineY = P.y := by
  have represents := stands.coordinates.represents
  rw [affineY, represents.y_eq, mul_div_cancel_right₀ _ represents.z_ne_zero]

/-- The valid points are those that stand for a point of the curve. -/
theorem valid_iff :
    point.Valid context ↔ ∃ P, point.Stands context P := by
  constructor
  · intro valid
    have solves : Solves 1 coefficient point.affineX point.affineY := by
      rw [Solves]
      linear_combination valid.equation
    rcases Represents.exists_iff.2 ⟨valid.z_ne_zero, solves⟩ with
      ⟨P, represents⟩
    exact
      ⟨P, valid.curve_eq,
        ⟨valid.x_proper, valid.y_proper, valid.z_proper, represents⟩,
        valid.room⟩
  · rintro ⟨P, stands⟩
    have coordinates := stands.coordinates
    have solves := P.solves
    rw [Solves, curve_a, curve_d, one_mul] at solves
    refine
      ⟨stands.curve_eq, coordinates.x_proper, coordinates.y_proper,
        coordinates.z_proper, coordinates.represents.z_ne_zero, ?_,
        stands.room⟩
    rw [stands.affineX_eq, stands.affineY_eq]
    exact solves

/-- What stands for a sum has the coordinates that the law gives. -/
theorem Stands.isSum
    (first : left.Stands context P)
    (second : right.Stands context Q)
    (total : sum.Stands context (P + Q)) :
    IsSum left right sum := by
  constructor <;>
    simp only [first.affineX_eq, first.affineY_eq, second.affineX_eq,
      second.affineY_eq, total.affineX_eq, total.affineY_eq]
  · exact EdwardsCurve.Point.one_add_cross_ne_zero P Q
  · exact EdwardsCurve.Point.one_sub_cross_ne_zero P Q
  · exact EdwardsCurve.Point.add_x P Q
  · rw [EdwardsCurve.Point.add_y, EdwardsCurve.Point.cross, curve_a, curve_d,
      one_mul]

section

variable
  (sound : context.Sound)

include sound

theorem Reachable.valid
    (reachable : Reachable context point) :
    point.Valid context :=
  valid_iff.2 (reachable.exists_stands sound)

/-- Points are compared by their affine coordinates. -/
theorem Stands.eq_affine
    (first : left.Stands context P)
    (second : right.Stands context Q) :
    left.eq right =
      .ok
        (decide
          ((left.affineX, left.affineY) = (right.affineX, right.affineY))) := by
  rw [first.eq_eq sound second, first.affineX_eq, first.affineY_eq,
    second.affineX_eq, second.affineY_eq]
  apply congrArg Except.ok
  apply decide_eq_decide.2
  rw [Prod.mk.injEq, EdwardsCurve.Point.ext_iff]

/-- Valid points that compare as equal stand for one point of the curve. -/
theorem Valid.exists_common
    (leftValid : left.Valid context)
    (rightValid : right.Valid context)
    (same : Same left right) :
    ∃ P, left.Stands context P ∧ right.Stands context P := by
  rcases valid_iff.1 leftValid with ⟨P, first⟩
  rcases valid_iff.1 rightValid with ⟨Q, second⟩
  rw [first.same_iff sound second] at same
  rw [← same] at second
  exact ⟨P, first, second⟩

/-- The comparison of reachable points is that of the bytes they are written by. -/
theorem compares_pairs :
    ComparesPairs (Reachable context) (Valid context) eq toBytes
      fun point => (point.affineX, point.affineY) := by
  have compares :
      ComparesBy (Valid context) eq
        fun point => (point.affineX, point.affineY) := by
    intro left right leftValid rightValid
    rcases valid_iff.1 leftValid with ⟨P, first⟩
    rcases valid_iff.1 rightValid with ⟨Q, second⟩
    exact first.eq_affine sound second
  have injective := Field448.ofNatBigEndian_val_injective
  apply compares.comparesPairs _ (injective.prodMap injective)
  · intro point valid
    rcases valid_iff.1 valid with ⟨P, stands⟩
    rw [stands.toBytes_eq sound, stands.affineX_eq, stands.affineY_eq]
    rfl
  · intro point reachable
    exact reachable.valid sound

/-- Repeated addition has a result, which stands for the multiple. -/
theorem Stands.sumOfCopies
    (stands : point.Stands context P)
    (count : Nat) :
    Answers context (point.sumOfCopies count) (count • P) := by
  induction count with
  | zero =>
    rw [zero_nsmul, Point.sumOfCopies, stands.curve_eq]
    exact (stands_neutral sound).answers
  | succ count ih =>
    rw [succ_nsmul, Point.sumOfCopies]
    exact ih.bind fun _ sum => sum.add sound stands

/-- Outcomes for one point of the curve are points that compare as equal. -/
theorem Answers.same
    {first second : Except Failure Point}
    (firstAnswers : Answers context first P)
    (secondAnswers : Answers context second P) :
    SameOutcome first second := by
  rcases firstAnswers with ⟨left, left_eq, leftStands⟩
  rcases secondAnswers with ⟨right, right_eq, rightStands⟩
  exact ⟨left, right, left_eq, right_eq, leftStands.same sound rightStands⟩

end

end

/-! ## Laws for reachable points -/

/-- A context and its base point, which is reachable under it. -/
theorem exists_reachable_base
    (identity : Nat) :
    ∃ context base,
      CurveContext.ofIdentity identity = .ok context ∧
        Point.base context = .ok base ∧ Reachable context base := by
  rcases CurveContext.exists_ofIdentity identity with ⟨context, made, sound⟩
  rcases answers_base sound with ⟨base, accepted, -⟩
  exact ⟨context, base, made, accepted, .base accepted⟩

/--
The formulas on reachable points.  Their coordinates are seven words below the
modulus with a denominator that does not vanish, and their ratios solve the
equation of the curve.  Sums have a result, and sums and doubles follow the
law of addition, whose denominators do not vanish whatever the operands are.
So do the programs that overwrite a point in its place.  The affine coordinates
are written, and read back as an equal point.
-/
theorem Reachable.formulas_complete
    {identity : Nat}
    {context : CurveContext}
    (made : CurveContext.ofIdentity identity = .ok context)
    {left right : Point}
    (leftReachable : Reachable context left)
    (rightReachable : Reachable context right) :
    left.Valid context ∧
      (∃ sum,
        left.add right = .ok sum ∧
          IsSum left right sum ∧
          (left.inPlace right).run context.field sumProgram =
            sum.inPlace right) ∧
      (IsSum left left left.double ∧
        (left.inPlace right).run context.field doubleProgram =
          left.double.inPlace right) ∧
      (left.neg.affineX = -left.affineX ∧
        left.neg.affineY = left.affineY ∧
        (left.inPlace right).run context.field negProgram =
          left.neg.inPlace right) ∧
      ∃ x y again,
        left.toBytes = .ok (x, y) ∧
          Point.ofBytes context x y = .ok again ∧
          Same again left := by
  have sound := CurveContext.sound_of_ofIdentity made
  rcases leftReachable.exists_stands sound with ⟨P, first⟩
  rcases rightReachable.exists_stands sound with ⟨Q, second⟩
  rcases first.add sound second with ⟨sum, sum_eq, sumStands⟩
  have double := first.double sound
  have neg := first.neg sound
  rcases ofBytes_coordinates sound P with ⟨again, accepted, stands⟩
  have sumInPlace := run_sumProgram sum_eq
  have doubleInPlace := run_doubleProgram left right
  have negInPlace := run_negProgram left right
  rw [first.curve_eq] at sumInPlace doubleInPlace negInPlace
  refine
    ⟨leftReachable.valid sound,
      ⟨sum, sum_eq, first.isSum second sumStands, sumInPlace⟩,
      ⟨first.isSum first double, doubleInPlace⟩, ⟨?_, ?_, negInPlace⟩,
      _, _, again, first.toBytes_eq sound, accepted, stands.same sound first⟩
  · rw [neg.affineX_eq, first.affineX_eq, EdwardsCurve.Point.neg_x]
  · rw [neg.affineY_eq, first.affineY_eq, EdwardsCurve.Point.neg_y]

/-- The base point, its sum with its opposite, and its double. -/
theorem Reachable.formulas_complete_at_base :
    ∃ context base sum,
      CurveContext.ofIdentity 0 = .ok context ∧
        Point.base context = .ok base ∧
        (Reachable context base ∧ Reachable context base.neg) ∧
        base.add base.neg = .ok sum ∧
        IsSum base base.neg sum ∧
        IsSum base base base.double := by
  rcases exists_reachable_base 0 with ⟨context, base, made, accepted, reachable⟩
  rcases formulas_complete made reachable reachable.neg with
    ⟨-, ⟨sum, sum_eq, isSum, -⟩, ⟨isDouble, -⟩, -⟩
  exact
    ⟨context, base, sum, made, accepted, ⟨reachable, reachable.neg⟩, sum_eq,
      isSum, isDouble⟩

/--
Multiplication by a scalar of any length is repeated addition, both by the
comparison of points and by their bytes, which always say the same.
-/
theorem Reachable.multiple_is_sum
    {identity : Nat}
    {context : CurveContext}
    (made : CurveContext.ofIdentity identity = .ok context)
    {point : Point}
    (reachable : Reachable context point)
    (scalar : Bytes) :
    (∃ sum,
      point.sumOfCopies scalar.bigEndianValue = .ok sum ∧
        Same (point.scale scalar) sum ∧
        ∃ bytes,
          (point.scale scalar).toBytes = .ok bytes ∧ sum.toBytes = .ok bytes) ∧
      ∀ other, Reachable context other →
        ∃ same bytes otherBytes,
          (point.scale scalar).eq other = .ok same ∧
            (point.scale scalar).toBytes = .ok bytes ∧
            other.toBytes = .ok otherBytes ∧
            (same = true ↔ bytes = otherBytes) := by
  have sound := CurveContext.sound_of_ofIdentity made
  rcases reachable.exists_stands sound with ⟨P, stands⟩
  have multiple := stands.scale sound scalar
  rcases stands.sumOfCopies sound scalar.bigEndianValue with
    ⟨sum, sum_eq, sumStands⟩
  refine
    ⟨⟨sum, sum_eq, multiple.same sound sumStands, _, multiple.toBytes_eq sound,
      sumStands.toBytes_eq sound⟩, ?_⟩
  intro other otherReachable
  rcases otherReachable.exists_stands sound with ⟨Q, otherStands⟩
  have written := multiple.toBytes_eq_iff sound otherStands
  refine
    ⟨_, _, _, multiple.eq_eq sound otherStands, multiple.toBytes_eq sound,
      otherStands.toBytes_eq sound, ?_⟩
  rw [multiple.toBytes_eq sound, otherStands.toBytes_eq sound,
    Except.ok.injEq] at written
  rw [decide_eq_true_eq, written]

/-- Five times the base point, by a scalar with a leading zero. -/
theorem Reachable.multiple_is_sum_at_base :
    ∃ context base sum,
      CurveContext.ofIdentity 0 = .ok context ∧
        Point.base context = .ok base ∧
        Reachable context base ∧
        base.sumOfCopies 5 = .ok sum ∧
        Same (base.scale [0, 5]) sum := by
  have five : Bytes.bigEndianValue [0, 5] = 5 := by
    decide
  rcases exists_reachable_base 0 with ⟨context, base, made, accepted, reachable⟩
  rcases multiple_is_sum made reachable [0, 5] with
    ⟨⟨sum, sum_eq, same, -⟩, -⟩
  rw [five] at sum_eq
  exact ⟨context, base, sum, made, accepted, reachable, sum_eq, same⟩

/--
The abelian group of the reachable points, up to their comparison.  The
comparison is an equivalence, and all operations respect it: an operand may be
replaced by any valid point that compares as equal to it, reachable or not.
-/
theorem Reachable.points_form_group
    {identity : Nat}
    {context : CurveContext}
    (made : CurveContext.ofIdentity identity = .ok context)
    {left middle right : Point}
    (leftReachable : Reachable context left)
    (middleReachable : Reachable context middle)
    (rightReachable : Reachable context right) :
    (Same left left ∧
        (Same left middle → Same middle left) ∧
        (Same left middle → Same middle right → Same left right)) ∧
      SameOutcome
        (do
          let sum ← left.add middle
          sum.add right)
        (do
          let sum ← middle.add right
          left.add sum) ∧
      SameOutcome (left.add middle) (middle.add left) ∧
      SameOutcome (left.add (Point.neutral context)) (.ok left) ∧
      SameOutcome (left.add left.neg) (.ok (Point.neutral context)) ∧
      SameOutcome (.ok left.double) (left.add left) ∧
      (left.Valid context ∧ middle.Valid context ∧ right.Valid context) ∧
      ∀ left' middle' : Point,
        left'.Valid context →
        middle'.Valid context →
        Same left left' →
        Same middle middle' →
        SameOutcome (left.add middle) (left'.add middle') ∧
          Same left.double left'.double ∧
          Same left.neg left'.neg ∧
          (∀ scalar, Same (left.scale scalar) (left'.scale scalar)) ∧
          left.eq middle = left'.eq middle' ∧
          left.toBytes = left'.toBytes := by
  have sound := CurveContext.sound_of_ofIdentity made
  rcases leftReachable.exists_stands sound with ⟨P, first⟩
  rcases middleReachable.exists_stands sound with ⟨Q, second⟩
  rcases rightReachable.exists_stands sound with ⟨R, third⟩
  have neutral := stands_neutral sound
  refine
    ⟨⟨first.same sound first, ?_, ?_⟩, ?_, ?_, ?_, ?_, ?_,
      ⟨leftReachable.valid sound, middleReachable.valid sound,
        rightReachable.valid sound⟩, ?_⟩
  · rw [first.same_iff sound second, second.same_iff sound first]
    exact Eq.symm
  · rw [first.same_iff sound second, second.same_iff sound third,
      first.same_iff sound third]
    exact Eq.trans
  · apply Answers.same sound
    · exact (first.add sound second).bind fun _ sum => sum.add sound third
    · rw [add_assoc]
      exact (second.add sound third).bind fun _ sum => first.add sound sum
  · apply (first.add sound second).same sound
    rw [add_comm]
    exact second.add sound first
  · have unchanged := first.add sound neutral
    rw [add_zero] at unchanged
    exact unchanged.same sound first.answers
  · have cancelled := first.add sound (first.neg sound)
    rw [add_neg_cancel] at cancelled
    exact cancelled.same sound neutral.answers
  · exact (first.double sound).answers.same sound (first.add sound first)
  · intro left' middle' leftValid middleValid leftSame middleSame
    rcases (leftReachable.valid sound).exists_common sound leftValid
        leftSame with
      ⟨P', one, one'⟩
    rcases (middleReachable.valid sound).exists_common sound middleValid
        middleSame with
      ⟨Q', two, two'⟩
    refine
      ⟨(one.add sound two).same sound (one'.add sound two'),
        (one.double sound).same sound (one'.double sound),
        (one.neg sound).same sound (one'.neg sound), ?_, ?_, ?_⟩
    · intro scalar
      exact (one.scale sound scalar).same sound (one'.scale sound scalar)
    · rw [one.eq_eq sound two, one'.eq_eq sound two']
    · rw [one.toBytes_eq sound, one'.toBytes_eq sound]

/-- The base point, its opposite and its double. -/
theorem Reachable.points_form_group_at_base :
    ∃ context base,
      CurveContext.ofIdentity 0 = .ok context ∧
        Point.base context = .ok base ∧
        (Reachable context base ∧
          Reachable context base.neg ∧
          Reachable context base.double) ∧
        SameOutcome
          (do
            let sum ← base.add base.neg
            sum.add base.double)
          (do
            let sum ← base.neg.add base.double
            base.add sum) ∧
        SameOutcome (base.add base.neg) (.ok (Point.neutral context)) ∧
        SameOutcome (.ok base.double) (base.add base) := by
  rcases exists_reachable_base 0 with ⟨context, base, made, accepted, reachable⟩
  have laws := points_form_group made reachable reachable.neg reachable.double
  exact
    ⟨context, base, made, accepted,
      ⟨reachable, reachable.neg, reachable.double⟩,
      laws.2.1, laws.2.2.2.2.1, laws.2.2.2.2.2.1⟩

end ModularLadder.Ed448.Point
