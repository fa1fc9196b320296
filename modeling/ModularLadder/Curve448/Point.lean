import ModularLadder.Curve448.Ladder

/-!
# Points on Curve448

A point is known by its x-coordinate, a fraction `X / Z` of field elements in
Montgomery form; the point at infinity is `(1 : 0)`.  It belongs to the
context that it was made under and does not mix with points of another one,
even though all contexts describe the same curve.

Multiples are computed by the ladder on the point's own workplace.  As the
ladder degenerates at the point of order two, the multiples of that point are
exchanged for the right ones afterwards.
-/

namespace ModularLadder.Curve448

open Field448 (onScratch)

/-- A point with its context and its temporaries. -/
structure Point where
  curve : CurveContext
  coordinates : Coordinates
  workplace : Workplace

namespace Point

/-- A point with fresh temporaries. -/
def ofCoordinates
    (curve : CurveContext)
    (coordinates : Coordinates) :
    Point :=
  { curve := curve
    coordinates := coordinates
    workplace := Workplace.fresh curve.field }

/-- The point with the given affine x-coordinate, big-endian and canonical. -/
def ofBytes (curve : CurveContext) (x : Bytes) : Except Failure Point := do
  if x.length ≠ Field448.byteLength then
    throw .value
  let x ← curve.field.encode x
  return ofCoordinates curve { x := x, z := curve.field.ofWord 1 }

/-- The point at infinity. -/
def infinity (curve : CurveContext) : Point :=
  ofCoordinates curve { x := curve.field.ofWord 1, z := curve.field.zero }

/-- Whether a point is the point at infinity. -/
def isInfinity (point : Point) : Bool :=
  (Words.isZero point.coordinates.z).isSet

/--
Exchanges the coordinates for the given small ones if the choice is set; what
they were is left among the temporaries.
-/
def exchangeSmall
    (curve : CurveContext)
    (x z : Word)
    (choice : Choice)
    (coordinates : Coordinates) :
    WorkplaceM Coordinates := do
  let e ← onScratch (curve.field.encodeWord x)
  let f ← onScratch (curve.field.encodeWord z)
  let newX := Words.swapIf coordinates.x e choice
  let newZ := Words.swapIf coordinates.z f choice
  modify fun workplace => { workplace with e := newX.2, f := newZ.2 }
  return { x := newX.1, z := newZ.1 }

/-- Gives the point at infinity the numerator one. -/
def normalizeInfinity
    (curve : CurveContext)
    (coordinates : Coordinates) :
    WorkplaceM Coordinates := do
  let e ← onScratch (curve.field.encodeWord 1)
  let x :=
    Words.swapIf coordinates.x e (Words.isZero coordinates.z)
  modify fun workplace => { workplace with e := x.2 }
  return { coordinates with x := x.1 }

/-- The coordinates of a finite point's multiple by a scalar. -/
def scaleCoordinates
    (curve : CurveContext)
    (coordinates : Coordinates)
    (scalar : Bytes) :
    WorkplaceM Coordinates := do
  let inverse ← onScratch (curve.field.inverse coordinates.z)
  let x1 ← onScratch (curve.field.multiply coordinates.x inverse)
  modify fun workplace => { workplace with a := inverse, x1 := x1 }
  let climbed ← curve.ladder (Scalar.bits scalar)
  let orderTwo := Words.isZero x1
  let odd := Scalar.isOdd scalar
  let mended ← exchangeSmall curve 0 1 (orderTwo &&& odd) climbed
  let mended ← exchangeSmall curve 1 0 (orderTwo &&& ~~~odd) mended
  normalizeInfinity curve mended

/-- The multiple of a point by a scalar. -/
def scale (point : Point) (scalar : Bytes) : Point :=
  if point.isInfinity then
    point
  else
    let (coordinates, workplace) :=
      (scaleCoordinates point.curve point.coordinates scalar).run
        point.workplace
    { point with coordinates := coordinates, workplace := workplace }

/-- The affine x-coordinate in big-endian form, unless at infinity. -/
def toBytes (point : Point) : Except Failure Bytes :=
  if point.isInfinity then
    .error .pointAtInfinity
  else
    let field := point.curve.field
    let affine : Montgomery.ScratchM Words := do
      let inverse ← field.inverse point.coordinates.z
      field.multiply point.coordinates.x inverse
    Field448.encode field (affine.evaluate field.width)

/-- Points of different contexts do not mix. -/
def checkSameCurve (left right : Point) : Except Failure Unit :=
  if left.curve.identity = right.curve.identity then
    .ok ()
  else
    .error .curveMismatch

/-- Whether two points of one context are the same, by cross products. -/
def eq (left right : Point) : Except Failure Bool := do
  checkSameCurve left right
  let field := left.curve.field
  let products : Montgomery.ScratchM Choice := do
    let leftProduct ← field.multiply left.coordinates.x right.coordinates.z
    let rightProduct ← field.multiply right.coordinates.x left.coordinates.z
    return Words.eq leftProduct rightProduct
  return (products.evaluate field.width).isSet

/-- The coordinates of another point of the same context, put in place. -/
def copyFrom (point source : Point) : Except Failure Point := do
  checkSameCurve point source
  return { point with coordinates := source.coordinates }

end Point

end ModularLadder.Curve448
