import ModularLadder.Failure
import ModularLadder.Field25519.Encoding
import ModularLadder.Field25519.Inverse
import ModularLadder.Scalar

/-!
# Points on Ed25519

The curve is `-x^2 + y^2 = 1 + d * x^2 * y^2` modulo `2^255 - 19` with
`d = -121665 / 121666`.  Points are kept in extended coordinates
`(X : Y : Z : T)` with `x = X / Z`, `y = Y / Z` and `T = X * Y / Z`.  The
formulas for sums and doubles are complete: they hold for all points without
exception.
-/

namespace ModularLadder.Ed25519

open Field25519 (Element)

/-- The constant `d` of the curve. -/
def d : Element :=
  { l0 := 0x35978a3
    l1 := 0xd37284
    l2 := 0x3156ebd
    l3 := 0x6a0a0e
    l4 := 0x1c029
    l5 := 0x179e898
    l6 := 0x3a03cbb
    l7 := 0x1ce7198
    l8 := 0x2e2b6ff
    l9 := 0x1480db3 }

/-- Twice the constant `d`. -/
def twiceD : Element :=
  { l0 := 0x2b2f159
    l1 := 0x1a6e509
    l2 := 0x22add7a
    l3 := 0xd4141d
    l4 := 0x38052
    l5 := 0xf3d130
    l6 := 0x3407977
    l7 := 0x19ce331
    l8 := 0x1c56dff
    l9 := 0x901b67 }

/-- The affine x-coordinate of the base point, big-endian. -/
def baseX : Bytes :=
  Bytes.ofNatBigEndian 32
    0x216936d3cd6e53fec0a4e231fdd6dc5c692cc7609525a7b2c9562d608f25d51a

/-- The affine y-coordinate of the base point, big-endian. -/
def baseY : Bytes :=
  Bytes.ofNatBigEndian 32
    0x6666666666666666666666666666666666666666666666666666666666666658

/-- The order of the base point, big-endian. -/
def order : Bytes :=
  Bytes.ofNatBigEndian 32
    0x1000000000000000000000000000000014def9dea2f79cd65812631a5cf5d3ed

/-- A point in extended coordinates. -/
structure Point where
  x : Element
  y : Element
  z : Element
  t : Element

namespace Point

/-- The point with given affine coordinates. -/
def ofAffine (x y : Element) : Point :=
  { x := x, y := y, z := Element.one, t := x.mul y }

/-- Whether affine coordinates satisfy the curve equation. -/
def onCurve (x y : Element) : Choice :=
  let xx := x.square
  let yy := y.square
  (yy.sub xx).eq ((d.mul (xx.mul yy)).add Element.one)

/--
The point with the given affine coordinates, each of them big-endian and
canonical, if they satisfy the curve equation.
-/
def ofBytes (x y : Bytes) : Except Failure Point := do
  if x.length ≠ Element.byteLength ∨ y.length ≠ Element.byteLength then
    throw .value
  match Element.ofCanonical? x, Element.ofCanonical? y with
  | some x, some y =>
    if (onCurve x y).isSet then
      return ofAffine x y
    else
      throw .pointNotOnCurve
  | _, _ => throw .value

/-- The neutral element `(0, 1)`. -/
def neutral : Point :=
  { x := Element.zero
    y := Element.one
    z := Element.one
    t := Element.zero }

/-- The base point. -/
def base : Point :=
  ofAffine (Element.ofBigEndian baseX) (Element.ofBigEndian baseY)

/-- The affine coordinates in big-endian form. -/
def toBytes (point : Point) : Bytes × Bytes :=
  let inverse := point.z.inverse
  ((point.x.mul inverse).toBigEndian, (point.y.mul inverse).toBigEndian)

/--
The point with `x = E / G` and `y = H / F`, in extended coordinates.
-/
def ofFractions (e f g h : Element) : Point :=
  { x := e.mul f
    y := g.mul h
    z := f.mul g
    t := e.mul h }

/-- The sum of two points. -/
def add (left right : Point) : Point :=
  let a := (left.y.sub left.x).mul (right.y.sub right.x)
  let b := (left.y.add left.x).mul (right.y.add right.x)
  let c := (left.t.mul twiceD).mul right.t
  let d := (left.z.mul right.z).mulSmall 2
  ofFractions (b.sub a) (d.sub c) (d.add c) (b.add a)

/-- The double of a point. -/
def double (point : Point) : Point :=
  let a := point.x.square
  let b := point.y.square
  let c := point.z.square.mulSmall 2
  let d := a.neg
  let e := ((point.x.add point.y).square.sub a).sub b
  let g := d.add b
  ofFractions e (g.sub c) g (d.sub b)

/-- The negation of a point. -/
def neg (point : Point) : Point :=
  { point with x := point.x.neg, t := point.t.neg }

/-- Two points, exchanged if the choice is set. -/
def swapIf (left right : Point) (choice : Choice) : Point × Point :=
  let x := left.x.swapIf right.x choice
  let y := left.y.swapIf right.y choice
  let z := left.z.swapIf right.z choice
  let t := left.t.swapIf right.t choice
  ({ x := x.1, y := y.1, z := z.1, t := t.1 },
    { x := x.2, y := y.2, z := z.2, t := t.2 })

/-- Whether two points are the same, by their cross products. -/
def eq (left right : Point) : Choice :=
  (left.x.mul right.z).eq (right.x.mul left.z) &&&
    (left.y.mul right.z).eq (right.y.mul left.z)

/-- The coordinates of another point, put in place. -/
def copyFrom (_point source : Point) : Point :=
  source

end Point

/--
The state of a climb: two points whose difference is the base of the climb,
and whether they are exchanged.
-/
structure Climb where
  lower : Point
  upper : Point
  exchanged : Choice

namespace Climb

/--
One bit of the scalar: the points are brought into the order that the bit asks
for, then the upper one becomes the sum of both and the lower one its double.
-/
def next (climb : Climb) (bit : Choice) : Climb :=
  let points := climb.lower.swapIf climb.upper (climb.exchanged ^^^ bit)
  { lower := points.1.double
    upper := points.2.add points.1
    exchanged := bit }

/-- The climb along bits from the neutral element and the base. -/
def along (base : Point) (bits : List Choice) : Climb :=
  bits.foldl next
    { lower := Point.neutral, upper := base, exchanged := Choice.no }

/-- The lower point, once the points are in their proper order. -/
def finish (climb : Climb) : Point :=
  (climb.lower.swapIf climb.upper climb.exchanged).1

end Climb

/-- The multiple of a point by a scalar. -/
def Point.scale (point : Point) (scalar : Bytes) : Point :=
  (Climb.along point (Scalar.bits scalar)).finish

end ModularLadder.Ed25519
