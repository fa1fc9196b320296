import ModularLadder.Ed448.Coordinates
import ModularLadder.Scalar

/-!
# Points on Ed448

A point has projective coordinates and temporaries of its own, and belongs to
the context that it was made under.  It does not mix with points of another
context, even though all contexts describe the same curve.

Multiples are computed by a ladder along the bits of the scalar: two points
whose difference is the base, the lower one doubled and added to the other in
each step, with an exchange beforehand wherever a bit differs from the
preceding one.
-/

namespace ModularLadder.Ed448

/-- The affine x-coordinate of the base point, big-endian. -/
def baseX : Bytes :=
  Bytes.ofNatBigEndian 56
    0x4f1970c66bed0ded221d15a622bf36da9e146570470f1767ea6de324a3d3a46412ae1af72ab66511433b80e18b00938e2626a82bc70cc05e

/-- The affine y-coordinate of the base point, big-endian. -/
def baseY : Bytes :=
  Bytes.ofNatBigEndian 56
    0x693f46716eb6bc248876203756c9c7624bea73736ca3984087789c1e05a0c2d73ad3ff1ce67c39c4fdbd132c4ed7c8ad9808795bf230fa14

/-- The order of the base point, big-endian. -/
def order : Bytes :=
  Bytes.ofNatBigEndian 56
    0x3fffffffffffffffffffffffffffffffffffffffffffffffffffffff7cca23e9c44edb49aed63690216cc2728dc58f552378c292ab5844f3

/-- A point with its context and its temporaries. -/
structure Point where
  curve : CurveContext
  coordinates : Coordinates
  workplace : Workplace

namespace Point

/-- A point with fresh temporaries. -/
def ofCoordinates
    (curve : CurveContext)
    (coordinates : Coordinates) :
    Point :=
  { curve := curve
    coordinates := coordinates
    workplace := Workplace.fresh curve.field }

/-- Computes new coordinates of a point on the point's own temporaries. -/
def update (point : Point) (operation : WorkplaceM Coordinates) : Point :=
  let (coordinates, workplace) := operation.run point.workplace
  { point with coordinates := coordinates, workplace := workplace }

/--
The point with the given affine coordinates, each of them big-endian and
canonical, if they satisfy the curve equation.
-/
def ofBytes
    (curve : CurveContext)
    (x y : Bytes) :
    Except Failure Point := do
  if x.length ≠ Field448.byteLength ∨ y.length ≠ Field448.byteLength then
    throw .value
  let x ← curve.field.encode x
  let y ← curve.field.encode y
  let coordinates : Coordinates := { x := x, y := y, z := curve.field.ofWord 1 }
  let point := ofCoordinates curve coordinates
  let (onCurve, workplace) := (curve.onCurve coordinates).run point.workplace
  if !onCurve.isSet then
    throw .pointNotOnCurve
  return { point with workplace := workplace }

/-- The neutral element. -/
def neutral (curve : CurveContext) : Point :=
  ofCoordinates curve (Coordinates.neutral curve.field)

/-- The base point. -/
def base (curve : CurveContext) : Except Failure Point :=
  ofBytes curve baseX baseY

/-- The affine coordinates in big-endian form. -/
def toBytes (point : Point) : Except Failure (Bytes × Bytes) := do
  let field := point.curve.field
  let affine : Montgomery.ScratchM (Words × Words) := do
    let inverse ← field.inverse point.coordinates.z
    let x ← field.multiply point.coordinates.x inverse
    let y ← field.multiply point.coordinates.y inverse
    return (x, y)
  let (x, y) := affine.evaluate field.width
  let x ← Field448.encode field x
  let y ← Field448.encode field y
  return (x, y)

/-- Points of different contexts do not mix. -/
def checkSameCurve (left right : Point) : Except Failure Unit :=
  if left.curve.identity = right.curve.identity then
    .ok ()
  else
    .error .curveMismatch

/-- The sum of two points of one context, in place of the first one. -/
def add (left right : Point) : Except Failure Point := do
  checkSameCurve left right
  return left.update (left.curve.add left.coordinates right.coordinates)

/-- The double of a point. -/
def double (point : Point) : Point :=
  point.update (point.curve.double point.coordinates)

/-- The negation of a point. -/
def neg (point : Point) : Point :=
  point.update (point.curve.neg point.coordinates)

/-- Two points, their coordinates exchanged if the choice is set. -/
def swapIf (left right : Point) (choice : Choice) : Point × Point :=
  let coordinates := left.coordinates.swapIf right.coordinates choice
  ({ left with coordinates := coordinates.1 },
    { right with coordinates := coordinates.2 })

/-- Whether two points of one context are the same, by cross products. -/
def eq (left right : Point) : Except Failure Bool := do
  checkSameCurve left right
  let field := left.curve.field
  let l := left.coordinates
  let r := right.coordinates
  let same : Montgomery.ScratchM Choice := do
    let leftX ← field.multiply l.x r.z
    let rightX ← field.multiply r.x l.z
    let leftY ← field.multiply l.y r.z
    let rightY ← field.multiply r.y l.z
    return Words.eq leftX rightX &&& Words.eq leftY rightY
  return (same.evaluate field.width).isSet

/-- The coordinates of another point of the same context, put in place. -/
def copyFrom (point source : Point) : Except Failure Point := do
  checkSameCurve point source
  return { point with coordinates := source.coordinates }

end Point

/--
The state of a climb: two points whose difference is the base of the climb,
and whether they are exchanged.
-/
structure Climb where
  lower : Point
  upper : Point
  exchanged : Choice

namespace Climb

/--
One bit of the scalar: the points are brought into the order that the bit asks
for, then the upper one becomes the sum of both and the lower one its double.
-/
def next (curve : CurveContext) (climb : Climb) (bit : Choice) : Climb :=
  let (lower, upper) :=
    climb.lower.swapIf climb.upper (climb.exchanged ^^^ bit)
  { lower := lower.double
    upper := upper.update (curve.add upper.coordinates lower.coordinates)
    exchanged := bit }

/-- The climb along bits from the neutral element and the base. -/
def along (base : Point) (bits : List Choice) : Climb :=
  bits.foldl (next base.curve)
    { lower := Point.neutral base.curve
      upper := base
      exchanged := Choice.no }

/-- The lower point, once the points are in their proper order. -/
def finish (climb : Climb) : Point :=
  (climb.lower.swapIf climb.upper climb.exchanged).1

end Climb

/-- The multiple of a point by a scalar. -/
def Point.scale (point : Point) (scalar : Bytes) : Point :=
  let multiple := (Climb.along point (Scalar.bits scalar)).finish
  { point with coordinates := multiple.coordinates }

end ModularLadder.Ed448
