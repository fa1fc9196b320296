import ModularLadder.Field25519.Element
import ModularLadder.Scalar

/-!
# The ladder on Curve25519

The curve is `y^2 = x^3 + 486662 * x^2 + x` modulo `2^255 - 19`.  Only
x-coordinates are kept, as fractions `X / Z`; the point at infinity has
`Z = 0`.

The ladder holds two points whose difference is the base point.  A step
doubles the first one and puts the sum of both in place of the second one.
For each bit of the scalar the points are first exchanged if the bit differs
from the preceding one, so that the step itself is the same for every bit.
-/

namespace ModularLadder.Curve25519

open Field25519 (Element)

/-- The constant `(A - 2) / 4` for the curve's coefficient `A = 486662`. -/
def a24 : UInt32 :=
  121665

/-- The projective x-coordinates of two points. -/
structure Rungs where
  x2 : Element
  z2 : Element
  x3 : Element
  z3 : Element

namespace Rungs

/--
One step for two points whose difference has the affine x-coordinate `x1`: the
first one becomes its double and the second one becomes the sum of both.
-/
def step (x1 : Element) (rungs : Rungs) : Rungs :=
  let a := rungs.x2.add rungs.z2
  let aa := a.square
  let b := rungs.x2.sub rungs.z2
  let bb := b.square
  let e := aa.sub bb
  let c := rungs.x3.add rungs.z3
  let d := rungs.x3.sub rungs.z3
  let da := d.mul a
  let cb := c.mul b
  { x2 := aa.mul bb
    z2 := e.mul (aa.add (e.mulSmall a24))
    x3 := (da.add cb).square
    z3 := x1.mul (da.sub cb).square }

/-- Exchanges the two points if the choice is set. -/
def swapIf (choice : Choice) (rungs : Rungs) : Rungs :=
  let x := rungs.x2.swapIf rungs.x3 choice
  let z := rungs.z2.swapIf rungs.z3 choice
  { x2 := x.1, z2 := z.1, x3 := x.2, z3 := z.2 }

/-- The point at infinity, and the base point above it. -/
def start (x1 : Element) : Rungs :=
  { x2 := Element.one
    z2 := Element.zero
    x3 := x1
    z3 := Element.one }

end Rungs

/-- The state of a climb: the two points, and whether they are exchanged. -/
structure Climb where
  rungs : Rungs
  exchanged : Choice

namespace Climb

/-- One bit of the scalar. -/
def next (x1 : Element) (climb : Climb) (bit : Choice) : Climb :=
  { rungs := (climb.rungs.swapIf (climb.exchanged ^^^ bit)).step x1
    exchanged := bit }

/-- The climb along bits from the start. -/
def along (x1 : Element) (bits : List Choice) : Climb :=
  bits.foldl (next x1) { rungs := Rungs.start x1, exchanged := Choice.no }

/-- The points of a climb in their proper order. -/
def finish (climb : Climb) : Rungs :=
  climb.rungs.swapIf climb.exchanged

end Climb

/--
The multiple of the point with affine x-coordinate `x1` by the scalar with the
given bits, in the lower rung.
-/
def ladder (x1 : Element) (bits : List Choice) : Rungs :=
  (Climb.along x1 bits).finish

end ModularLadder.Curve25519
