import Mathlib
import ModularLadder.Proofs.Ed25519.Climb
import ModularLadder.Proofs.PointComparison

/-!
# The points that programs on Ed25519 meet

A point is reachable if it is built from accepted coordinates, the neutral
element and the base point by the operations on points.  Every reachable point
stands for a point of the curve, by induction on how it is built, and what is
true of the group becomes a property of all reachable points:

* their coordinates are consistent, and the formulas are the law of addition,
  whatever the operands are;
* they form an abelian group, up to the comparison of points;
* multiplication by a scalar is repeated addition;
* they are compared by the bytes they are written by.
-/

namespace ModularLadder.Ed25519.Point

open EdwardsCurve (Solves)
open Field25519 (Residue)

/-- The points that are built by the operations on points. -/
inductive Reachable : Point → Prop where
  | ofBytes
      {x y : Bytes}
      {point : Point}
      (accepted : Point.ofBytes x y = .ok point) :
      Reachable point
  | neutral : Reachable Point.neutral
  | base : Reachable Point.base
  | add
      {left right : Point}
      (leftReachable : Reachable left)
      (rightReachable : Reachable right) :
      Reachable (left.add right)
  | double
      {point : Point}
      (reachable : Reachable point) :
      Reachable point.double
  | neg
      {point : Point}
      (reachable : Reachable point) :
      Reachable point.neg
  | scale
      {point : Point}
      (reachable : Reachable point)
      (scalar : Bytes) :
      Reachable (point.scale scalar)
  | copyFrom
      {point source : Point}
      (reachable : Reachable point)
      (sourceReachable : Reachable source) :
      Reachable (point.copyFrom source)

/-- Every reachable point stands for a point of the curve. -/
theorem Reachable.exists_stands
    {point : Point}
    (reachable : Reachable point) :
    ∃ P, point.Stands P := by
  induction reachable with
  | ofBytes accepted => exact exists_stands_of_ofBytes accepted
  | neutral => exact ⟨0, stands_neutral⟩
  | base => exact ⟨basePoint, stands_base⟩
  | add _ _ first second =>
    rcases first with ⟨P, first⟩
    rcases second with ⟨Q, second⟩
    exact ⟨P + Q, (first.add second).stands⟩
  | double _ ih =>
    rcases ih with ⟨P, stands⟩
    exact ⟨P + P, stands.double.stands⟩
  | neg _ ih =>
    rcases ih with ⟨P, stands⟩
    exact ⟨-P, stands.neg.stands⟩
  | scale _ scalar ih =>
    rcases ih with ⟨P, stands⟩
    exact ⟨scalar.bigEndianValue • P, (stands.scale scalar).stands⟩
  | copyFrom _ _ _ ih => exact ih

/-! ## Coordinates, sums and copies -/

/-- The affine x-coordinate. -/
def affineX (point : Point) : Residue :=
  point.x.residue / point.z.residue

/-- The affine y-coordinate. -/
def affineY (point : Point) : Residue :=
  point.y.residue / point.z.residue

/--
Any representation of a point of the curve by reduced limbs, whether it is
reachable or not.
-/
structure Valid (point : Point) : Prop where
  x_reduced : point.x.Reduced
  y_reduced : point.y.Reduced
  z_reduced : point.z.Reduced
  t_reduced : point.t.Reduced
  z_ne_zero : point.z.residue ≠ 0
  product :
    point.x.residue * point.y.residue = point.z.residue * point.t.residue
  equation :
    -point.affineX ^ 2 + point.affineY ^ 2 =
      1 + coefficient * point.affineX ^ 2 * point.affineY ^ 2

/-- The law of addition for affine coordinates, with its denominators. -/
structure IsSum (left right sum : Point) : Prop where
  plus_ne_zero :
    1 + coefficient * left.affineX * right.affineX * left.affineY *
      right.affineY ≠ 0
  minus_ne_zero :
    1 - coefficient * left.affineX * right.affineX * left.affineY *
      right.affineY ≠ 0
  x_eq :
    sum.affineX =
      (left.affineX * right.affineY + left.affineY * right.affineX) /
        (1 + coefficient * left.affineX * right.affineX * left.affineY *
          right.affineY)
  y_eq :
    sum.affineY =
      (left.affineY * right.affineY + left.affineX * right.affineX) /
        (1 - coefficient * left.affineX * right.affineX * left.affineY *
          right.affineY)

/-- The comparison of two points, which has an answer whatever they are. -/
def compare (left right : Point) : Except Failure Bool :=
  .ok (left.eq right).isSet

/-- Copies of a point, added one after the other to the neutral element. -/
def sumOfCopies (point : Point) : (count : Nat) → Point
  | 0 => Point.neutral
  | count + 1 => (point.sumOfCopies count).add point

/-! ## Points that stand for points of the curve -/

section

variable
  {point left right sum : Point}
  {P Q : curve.Point}

/-- The valid points are those that stand for a point of the curve. -/
theorem valid_iff :
    point.Valid ↔ ∃ P, point.Stands P := by
  constructor
  · intro valid
    have solves : Solves (-1) coefficient point.affineX point.affineY := by
      rw [Solves]
      linear_combination valid.equation
    rcases Represents.exists_iff.2 ⟨valid.z_ne_zero, valid.product, solves⟩ with
      ⟨P, represents⟩
    exact
      ⟨P, valid.x_reduced, valid.y_reduced, valid.z_reduced, valid.t_reduced,
        represents⟩
  · rintro ⟨P, stands⟩
    rcases Represents.exists_iff.1 ⟨P, stands.represents⟩ with
      ⟨z_ne_zero, product, solves⟩
    refine
      ⟨stands.x_reduced, stands.y_reduced, stands.z_reduced, stands.t_reduced,
        z_ne_zero, product, ?_⟩
    rw [Solves] at solves
    rw [affineX, affineY]
    linear_combination solves

/-- Valid points that compare as equal stand for one point of the curve. -/
theorem Valid.exists_common
    (leftValid : left.Valid)
    (rightValid : right.Valid)
    (same : Same left right) :
    ∃ P, left.Stands P ∧ right.Stands P := by
  rcases valid_iff.1 leftValid with ⟨P, first⟩
  rcases valid_iff.1 rightValid with ⟨Q, second⟩
  rw [first.same_iff second] at same
  rw [← same] at second
  exact ⟨P, first, second⟩

theorem Reachable.valid
    (reachable : Reachable point) :
    point.Valid :=
  valid_iff.2 reachable.exists_stands

theorem Stands.affineX_eq
    (stands : point.Stands P) :
    point.affineX = P.x := by
  rw [affineX, stands.represents.x_eq,
    mul_div_cancel_right₀ _ stands.represents.z_ne_zero]

theorem Stands.affineY_eq
    (stands : point.Stands P) :
    point.affineY = P.y := by
  rw [affineY, stands.represents.y_eq,
    mul_div_cancel_right₀ _ stands.represents.z_ne_zero]

/-- What stands for a sum has the coordinates that the law gives. -/
theorem Stands.isSum
    (first : left.Stands P)
    (second : right.Stands Q)
    (total : sum.Stands (P + Q)) :
    IsSum left right sum := by
  constructor <;>
    simp only [first.affineX_eq, first.affineY_eq, second.affineX_eq,
      second.affineY_eq, total.affineX_eq, total.affineY_eq]
  · exact EdwardsCurve.Point.one_add_cross_ne_zero P Q
  · exact EdwardsCurve.Point.one_sub_cross_ne_zero P Q
  · exact EdwardsCurve.Point.add_x P Q
  · rw [EdwardsCurve.Point.add_y, EdwardsCurve.Point.cross, curve_a, curve_d]
    congr 1
    ring

theorem Stands.sumOfCopies
    (stands : point.Stands P)
    (count : Nat) :
    (point.sumOfCopies count).Stands (count • P) := by
  induction count with
  | zero =>
    rw [zero_nsmul]
    exact stands_neutral
  | succ count ih =>
    rw [succ_nsmul]
    exact (ih.add stands).stands

/-- Points are compared by their affine coordinates. -/
theorem Stands.compare_eq
    (first : left.Stands P)
    (second : right.Stands Q) :
    left.compare right =
      .ok
        (decide ((left.affineX, left.affineY) = (right.affineX, right.affineY))) := by
  rw [compare, Except.ok.injEq, Bool.eq_iff_iff, decide_eq_true_eq,
    Prod.mk.injEq, first.affineX_eq, first.affineY_eq, second.affineX_eq,
    second.affineY_eq, ← EdwardsCurve.Point.ext_iff]
  exact first.same_iff second

end

/-! ## Laws for reachable points -/

/-- The comparison of reachable points is that of the bytes they are written by. -/
theorem compares_pairs :
    ComparesPairs Reachable Valid compare (fun point => .ok point.toBytes)
      fun point => (point.affineX, point.affineY) := by
  have compares :
      ComparesBy Valid compare fun point => (point.affineX, point.affineY) := by
    intro left right leftValid rightValid
    rcases valid_iff.1 leftValid with ⟨P, first⟩
    rcases valid_iff.1 rightValid with ⟨Q, second⟩
    exact first.compare_eq second
  have injective := Field25519.ofNatBigEndian_val_injective
  apply compares.comparesPairs _ (injective.prodMap injective)
  · intro point valid
    rcases valid_iff.1 valid with ⟨P, stands⟩
    rw [stands.toBytes_eq, stands.affineX_eq, stands.affineY_eq]
    rfl
  · intro point reachable
    exact reachable.valid

/--
The formulas on reachable points.  Their coordinates are reduced and
consistent; sums and doubles follow the law of addition, whose denominators do
not vanish whatever the operands are; all operands of the field's operations
are within their bounds; and the affine coordinates are read back.
-/
theorem Reachable.law_complete
    {left right : Point}
    (leftReachable : Reachable left)
    (rightReachable : Reachable right) :
    left.Valid ∧
      (left.add? right = some (left.add right) ∧
        left.double? = some left.double ∧
        left.neg? = some left.neg) ∧
      IsSum left right (left.add right) ∧
      IsSum left left left.double ∧
      (left.neg.affineX = -left.affineX ∧
        left.neg.affineY = left.affineY) ∧
      ∃ again,
        Point.ofBytes left.toBytes.1 left.toBytes.2 = .ok again ∧
          Same again left := by
  rcases leftReachable.exists_stands with ⟨P, first⟩
  rcases rightReachable.exists_stands with ⟨Q, second⟩
  have sum := first.add second
  have double := first.double
  have neg := first.neg
  rcases ofBytes_coordinates P with ⟨again, accepted, stands⟩
  refine
    ⟨leftReachable.valid,
      ⟨sum.checked_eq, double.checked_eq, neg.checked_eq⟩,
      first.isSum second sum.stands, first.isSum first double.stands, ?_,
      again, ?_, stands.same first⟩
  · rw [neg.stands.affineX_eq, neg.stands.affineY_eq, first.affineX_eq,
      first.affineY_eq]
    exact ⟨rfl, rfl⟩
  · rw [first.toBytes_eq]
    exact accepted

/-- The base point, its sum with the neutral element and its double. -/
theorem Reachable.law_complete_base :
    Reachable Point.base ∧
      Reachable Point.neutral ∧
      IsSum Point.base Point.neutral (Point.base.add Point.neutral) ∧
      IsSum Point.base Point.base Point.base.double := by
  have laws := law_complete base neutral
  exact ⟨base, neutral, laws.2.2.1, laws.2.2.2.1⟩

/--
Multiplication by a scalar of any length is repeated addition, both by the
comparison of points and by their bytes, which always say the same.  A scalar
of zeros, or an empty one, gives the neutral element, and leading zeros are of
no consequence.
-/
theorem Reachable.scale_repeats
    {point : Point}
    (reachable : Reachable point)
    (scalar : Bytes) :
    point.scale? scalar = some (point.scale scalar) ∧
      Same (point.scale scalar)
        (point.sumOfCopies scalar.bigEndianValue) ∧
      (point.scale scalar).toBytes =
        (point.sumOfCopies scalar.bigEndianValue).toBytes ∧
      (∀ other, Reachable other →
        (Same (point.scale scalar) other ↔
          (point.scale scalar).toBytes = other.toBytes)) ∧
      ((∀ byte ∈ scalar, byte = 0) →
        Same (point.scale scalar) Point.neutral) ∧
      ∀ zeros : Bytes, (∀ byte ∈ zeros, byte = 0) →
        Same (point.scale (zeros ++ scalar)) (point.scale scalar) ∧
          (point.scale (zeros ++ scalar)).toBytes =
            (point.scale scalar).toBytes := by
  rcases reachable.exists_stands with ⟨P, stands⟩
  rcases stands.scale scalar with ⟨checked_eq, multiple⟩
  have copies := stands.sumOfCopies scalar.bigEndianValue
  refine
    ⟨checked_eq, multiple.same copies,
      (multiple.toBytes_eq_iff copies).2 rfl, ?_, ?_, ?_⟩
  · intro other otherReachable
    rcases otherReachable.exists_stands with ⟨Q, otherStands⟩
    rw [multiple.same_iff otherStands, multiple.toBytes_eq_iff otherStands]
  · intro zeros
    rw [multiple.same_iff stands_neutral, Bytes.bigEndianValue_zeros zeros,
      zero_nsmul]
  · intro zeros allZero
    have longer := (stands.scale (zeros ++ scalar)).stands
    rw [Bytes.bigEndianValue_append, Bytes.bigEndianValue_zeros allZero,
      Nat.mul_zero, Nat.zero_add] at longer
    exact ⟨longer.same multiple, (longer.toBytes_eq_iff multiple).2 rfl⟩

/-- Five times the base point, by a scalar with a leading zero. -/
theorem Reachable.scale_repeats_base :
    Reachable Point.base ∧
      Same (Point.base.scale [0, 5]) (Point.base.sumOfCopies 5) := by
  have five : Bytes.bigEndianValue [0, 5] = 5 := by
    decide
  have laws := scale_repeats base [0, 5]
  rw [five] at laws
  exact ⟨base, laws.2.1⟩

/--
The abelian group of the reachable points, up to their comparison.  The
comparison is an equivalence, and all operations respect it: an operand may be
replaced by any valid point that compares as equal to it, reachable or not.
Such a point is also written by the same bytes.
-/
theorem Reachable.group_laws
    {left middle right : Point}
    (leftReachable : Reachable left)
    (middleReachable : Reachable middle)
    (rightReachable : Reachable right) :
    (Same left left ∧
        (Same left middle → Same middle left) ∧
        (Same left middle → Same middle right → Same left right)) ∧
      Same ((left.add middle).add right) (left.add (middle.add right)) ∧
      Same (left.add middle) (middle.add left) ∧
      Same (left.add Point.neutral) left ∧
      Same (left.add left.neg) Point.neutral ∧
      Same left.double (left.add left) ∧
      (left.Valid ∧ middle.Valid ∧ right.Valid) ∧
      ∀ left' middle' : Point,
        left'.Valid →
        middle'.Valid →
        Same left left' →
        Same middle middle' →
        Same (left.add middle) (left'.add middle') ∧
          Same left.double left'.double ∧
          Same left.neg left'.neg ∧
          (∀ scalar, Same (left.scale scalar) (left'.scale scalar)) ∧
          left.eq middle = left'.eq middle' ∧
          left.toBytes = left'.toBytes := by
  rcases leftReachable.exists_stands with ⟨P, first⟩
  rcases middleReachable.exists_stands with ⟨Q, second⟩
  rcases rightReachable.exists_stands with ⟨R, third⟩
  have sum := (first.add second).stands
  refine
    ⟨⟨first.same first, ?_, ?_⟩, ?_, ?_, ?_, ?_, ?_,
      ⟨leftReachable.valid, middleReachable.valid, rightReachable.valid⟩, ?_⟩
  · rw [first.same_iff second, second.same_iff first]
    exact Eq.symm
  · rw [first.same_iff second, second.same_iff third, first.same_iff third]
    exact Eq.trans
  · have grouped := (first.add (second.add third).stands).stands
    rw [← add_assoc] at grouped
    exact (sum.add third).stands.same grouped
  · have exchanged := (second.add first).stands
    rw [add_comm] at exchanged
    exact sum.same exchanged
  · have unchanged := (first.add stands_neutral).stands
    rw [add_zero] at unchanged
    exact unchanged.same first
  · have cancelled := (first.add first.neg.stands).stands
    rw [add_neg_cancel] at cancelled
    exact cancelled.same stands_neutral
  · exact first.double.stands.same (first.add first).stands
  · intro left' middle' leftValid middleValid leftSame middleSame
    rcases leftReachable.valid.exists_common leftValid leftSame with
      ⟨P', one, one'⟩
    rcases middleReachable.valid.exists_common middleValid middleSame with
      ⟨Q', two, two'⟩
    refine
      ⟨(one.add two).stands.same (one'.add two').stands,
        one.double.stands.same one'.double.stands,
        one.neg.stands.same one'.neg.stands, ?_, ?_, ?_⟩
    · intro scalar
      exact (one.scale scalar).stands.same (one'.scale scalar).stands
    · rw [one.eq_eq two, one'.eq_eq two']
    · rw [one.toBytes_eq, one'.toBytes_eq]

/-- The base point, its opposite and its double. -/
theorem Reachable.group_laws_base :
    Reachable Point.base ∧
      Same ((Point.base.add Point.base.neg).add Point.base.double)
        (Point.base.add (Point.base.neg.add Point.base.double)) ∧
      Same (Point.base.add Point.base.neg) Point.neutral ∧
      Same Point.base.double (Point.base.add Point.base) := by
  have laws := group_laws base base.neg base.double
  exact ⟨base, laws.2.1, laws.2.2.2.2.1, laws.2.2.2.2.2.1⟩

end ModularLadder.Ed25519.Point
