import Mathlib
import ModularLadder.Ed448.Point
import ModularLadder.Proofs.Field448.Places

/-!
# Sums and doubles on Ed448 in place

A point is replaced by its sum, its double or its negation in its own places,
with six temporaries.  Its coordinates are overwritten while others are still
read: a sum keeps its mixed product in the place of `X`, and the finished `X`
and `Y` in the place of `Z` and in a temporary, until the former coordinates
are no longer needed.

The programs below say which place every operation reads and writes.  After a
program the places hold the coordinates that the sum, the double or the
negation answers with and the temporaries that it leaves behind, whatever they
held beforehand.  The other operand and the constant of the curve stay as they
are.
-/

namespace ModularLadder.Ed448

open Field448 (Performs)
open Montgomery (Machine Step)

/-- The places of an operation on points. -/
inductive Place where
  | x
  | y
  | z
  | a
  | b
  | c
  | d
  | e
  | f
  | otherX
  | otherY
  | otherZ
  | constant
  deriving DecidableEq

/-- What the places hold before an operation. -/
def Place.contents
    (context : CurveContext)
    (own other : Coordinates)
    (workplace : Workplace) :
    Place → Words
  | .x => own.x
  | .y => own.y
  | .z => own.z
  | .a => workplace.a
  | .b => workplace.b
  | .c => workplace.c
  | .d => workplace.d
  | .e => workplace.e
  | .f => workplace.f
  | .otherX => other.x
  | .otherY => other.y
  | .otherZ => other.z
  | .constant => context.d

/-- A point, another operand and the temporaries, in their places. -/
def places
    (context : CurveContext)
    (own other : Coordinates)
    (workplace : Workplace) :
    Machine Place where
  registers := Place.contents context own other workplace
  scratch := workplace.scratch

/-- The sum of two points, in the place of the first one. -/
def sumProgram : List (Step Place) :=
  [.multiply .a .z .otherZ,
    .multiply .b .a .a,
    .multiply .c .x .otherX,
    .multiply .d .y .otherY,
    .multiply .f .c .d,
    .multiply .e .constant .f,
    .sub .f .b .e,
    .addInPlace .b .e,
    .add .e .x .y,
    .add .z .otherX .otherY,
    .multiply .x .e .z,
    .subInPlace .x .c,
    .subInPlace .x .d,
    .multiply .e .a .f,
    .multiply .z .e .x,
    .sub .y .d .c,
    .multiply .e .a .b,
    .multiply .a .e .y,
    .copy .x .z,
    .copy .y .a,
    .multiply .z .f .b]

/-- The double of a point, in its place. -/
def doubleProgram : List (Step Place) :=
  [.add .a .x .y,
    .multiply .b .a .a,
    .multiply .c .x .x,
    .multiply .d .y .y,
    .add .e .c .d,
    .multiply .f .z .z,
    .add .a .f .f,
    .sub .f .e .a,
    .sub .a .b .e,
    .multiply .x .a .f,
    .sub .a .c .d,
    .multiply .y .e .a,
    .multiply .z .e .f]

/-- The negation of a point, in its place. -/
def negProgram : List (Step Place) :=
  [.neg .a .x,
    .copy .x .a]

section

variable
  (context : CurveContext)
  (own other : Coordinates)
  (workplace : Workplace)

/-- No place of a sum is overwritten before it has been read. -/
theorem sum_performs :
    Performs context.field (places context · other)
      (places context own other workplace) sumProgram workplace
      (context.add own other) := by
  refine .operation rfl rfl fun a _ => ?_
  refine .operation rfl rfl fun b _ => ?_
  refine .operation rfl rfl fun c _ => ?_
  refine .operation rfl rfl fun d _ => ?_
  refine .operation rfl rfl fun cd _ => ?_
  refine .operation rfl rfl fun e _ => ?_
  refine .operation rfl rfl fun f _ => ?_
  refine .operation rfl rfl fun g _ => ?_
  refine .operation rfl rfl fun leftSum _ => ?_
  refine .operation rfl rfl fun rightSum _ => ?_
  refine .operation rfl rfl fun h _ => ?_
  refine .operation rfl rfl fun mixed _ => ?_
  refine .operation rfl rfl fun mixed _ => ?_
  refine .operation rfl rfl fun af _ => ?_
  refine .operation rfl rfl fun x _ => ?_
  refine .operation rfl rfl fun straight _ => ?_
  refine .operation rfl rfl fun ag _ => ?_
  refine .operation rfl rfl fun y _ => ?_
  refine .move (.move ?_)
  refine .operation rfl rfl fun z _ => ?_
  refine .modify_bind (.done ?_ rfl)
  intro place
  cases place <;> rfl

theorem double_performs :
    Performs context.field (places context · other)
      (places context own other workplace) doubleProgram workplace
      (context.double own) := by
  refine .operation rfl rfl fun sum _ => ?_
  refine .operation rfl rfl fun b _ => ?_
  refine .operation rfl rfl fun c _ => ?_
  refine .operation rfl rfl fun d _ => ?_
  refine .operation rfl rfl fun e _ => ?_
  refine .operation rfl rfl fun zz _ => ?_
  refine .operation rfl rfl fun twiceZz _ => ?_
  refine .operation rfl rfl fun j _ => ?_
  refine .operation rfl rfl fun mixed _ => ?_
  refine .operation rfl rfl fun x _ => ?_
  refine .operation rfl rfl fun straight _ => ?_
  refine .operation rfl rfl fun y _ => ?_
  refine .operation rfl rfl fun z _ => ?_
  refine .modify_bind (.done ?_ rfl)
  intro place
  cases place <;> rfl

theorem neg_performs :
    Performs context.field (places context · other)
      (places context own other workplace) negProgram workplace
      (context.neg own) := by
  refine .move (.move ?_)
  refine .modify_bind (.done ?_ rfl)
  intro place
  cases place <;> rfl

end

namespace Point

/-- A point in its place, with another operand. -/
def inPlace (point other : Point) : Machine Place :=
  places point.curve point.coordinates other.coordinates point.workplace

variable
  {left right sum : Point}

theorem run_sumProgram
    (added : left.add right = .ok sum) :
    (left.inPlace right).run left.curve.field sumProgram =
      sum.inPlace right := by
  rw [add] at added
  cases same : checkSameCurve left right with
  | error failure =>
    rw [same] at added
    exact nomatch added
  | ok =>
    rw [same] at added
    cases added
    exact sum_performs _ _ _ _

theorem run_doubleProgram
    (point other : Point) :
    (point.inPlace other).run point.curve.field doubleProgram =
      point.double.inPlace other :=
  double_performs _ _ _ _

theorem run_negProgram
    (point other : Point) :
    (point.inPlace other).run point.curve.field negProgram =
      point.neg.inPlace other :=
  neg_performs _ _ _ _

end Point

end ModularLadder.Ed448
