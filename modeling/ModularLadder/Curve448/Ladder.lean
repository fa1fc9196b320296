import ModularLadder.Curve448.Workplace
import ModularLadder.Scalar

/-!
# The ladder on Curve448

The curve is `y^2 = x^3 + 156326 * x^2 + x` modulo `2^448 - 2^224 - 1`.  The
ladder is the one of all Montgomery curves: it keeps two points with a
constant difference, doubles the lower one and adds the other in each step.

The lower point's coordinates are the outcome.  Those of the upper point, the
base's x-coordinate and the intermediate results are kept in the workplace.
-/

namespace ModularLadder.Curve448

open Field448 (onScratch)
open Montgomery (Context)

/-- The curve's constants, with an identity that tells contexts apart. -/
structure CurveContext where
  identity : Nat
  field : Context
  /-- The constant `(A - 2) / 4` for the coefficient `A = 156326`. -/
  a24 : Words

/-- A context with the given identity. -/
def CurveContext.ofIdentity (identity : Nat) : Except Failure CurveContext := do
  let field ← Field448.context
  return {
    identity := identity
    field := field
    a24 := field.ofWord 39081 }

/-- The projective x-coordinate of a point. -/
structure Coordinates where
  x : Words
  z : Words

namespace CurveContext

/--
One step for the lower point and the one in the workplace, whose difference
has the affine x-coordinate in the workplace.
-/
def step (curve : CurveContext) (lower : Coordinates) :
    WorkplaceM Coordinates := do
  let field := curve.field
  let before ← get
  let sum ← onScratch (field.add lower.x lower.z)
  let difference ← onScratch (field.sub lower.x lower.z)
  let upperSum ← onScratch (field.add before.x3 before.z3)
  let upperDifference ← onScratch (field.sub before.x3 before.z3)
  let da ← onScratch (field.multiply upperDifference sum)
  let cb ← onScratch (field.multiply upperSum difference)
  let crossSum ← onScratch (field.add da cb)
  let x3 ← onScratch (field.square crossSum)
  let crossDifference ← onScratch (field.sub da cb)
  let crossSquare ← onScratch (field.square crossDifference)
  let z3 ← onScratch (field.multiply before.x1 crossSquare)
  let aa ← onScratch (field.square sum)
  let bb ← onScratch (field.square difference)
  let x2 ← onScratch (field.multiply aa bb)
  let e ← onScratch (field.sub aa bb)
  let scaled ← onScratch (field.multiply curve.a24 e)
  let slope ← onScratch (field.add aa scaled)
  let z2 ← onScratch (field.multiply e slope)
  modify fun workplace =>
    { workplace with
      a := e
      b := scaled
      c := slope
      d := crossDifference
      e := aa
      f := bb
      x3 := x3
      z3 := z3 }
  return { x := x2, z := z2 }

/-- Exchanges the lower and the upper point if the choice is set. -/
def exchange
    (choice : Choice)
    (lower : Coordinates) :
    WorkplaceM Coordinates := do
  let workplace ← get
  let x := Words.swapIf lower.x workplace.x3 choice
  let z := Words.swapIf lower.z workplace.z3 choice
  set { workplace with x3 := x.2, z3 := z.2 }
  return { x := x.1, z := z.1 }

/-- The lower point of a climb, and whether the points are exchanged. -/
structure Climb where
  lower : Coordinates
  exchanged : Choice

/-- One bit of the scalar. -/
def next
    (curve : CurveContext)
    (climb : Climb)
    (bit : Choice) :
    WorkplaceM Climb := do
  let ordered ← exchange (climb.exchanged ^^^ bit) climb.lower
  let lower ← curve.step ordered
  return { lower := lower, exchanged := bit }

/--
The multiple of the base in the workplace by the scalar with the given bits.
-/
def ladder (curve : CurveContext) (bits : List Choice) :
    WorkplaceM Coordinates := do
  let field := curve.field
  let x ← onScratch (field.encodeWord 1)
  let z ← onScratch (field.encodeWord 0)
  modify fun workplace => { workplace with x3 := workplace.x1 }
  let z3 ← onScratch (field.encodeWord 1)
  modify fun workplace => { workplace with z3 := z3 }
  let start : Climb :=
    { lower := { x := x, z := z }, exchanged := Choice.no }
  let climb ← bits.foldlM curve.next start
  exchange climb.exchanged climb.lower

end CurveContext

end ModularLadder.Curve448
