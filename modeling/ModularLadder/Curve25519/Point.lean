import ModularLadder.Curve25519.Ladder
import ModularLadder.Failure
import ModularLadder.Field25519.Encoding
import ModularLadder.Field25519.Inverse

/-!
# Points on Curve25519

A point is known by its x-coordinate, a fraction `X / Z` of field elements.
The point at infinity is `(1 : 0)`.  Every x-coordinate below the modulus
makes a point, be it on the curve or on its quadratic twist.

Multiples are computed by the ladder.  The ladder degenerates at the point of
order two, which has x-coordinate zero: its odd multiples are itself and its
even multiples are the point at infinity, which is put right afterwards.
-/

namespace ModularLadder.Curve25519

open Field25519 (Element)

/-- A point in projective coordinates. -/
structure Point where
  x : Element
  z : Element

namespace Point

/-- The point with the given affine x-coordinate, big-endian and canonical. -/
def ofBytes (x : Bytes) : Except Failure Point :=
  if x.length = Element.byteLength then
    match Element.ofCanonical? x with
    | some x => .ok { x := x, z := Element.one }
    | none => .error .value
  else
    .error .value

/-- The point at infinity. -/
def infinity : Point :=
  { x := Element.one, z := Element.zero }

/-- Whether a point is the point at infinity. -/
def isInfinity (point : Point) : Bool :=
  point.z.isZero.isSet

/-- The affine x-coordinate as a field element; at infinity, zero. -/
def affine (point : Point) : Element :=
  point.x.mul point.z.inverse

/--
Puts the multiples of the point of order two in place of what the ladder has
found for them.
-/
def repairOrderTwo
    (orderTwo odd : Choice)
    (point : Point) :
    Point :=
  let x := point.x.assignIf Element.zero (orderTwo &&& odd)
  let z := point.z.assignIf Element.one (orderTwo &&& odd)
  { x := x.assignIf Element.one (orderTwo &&& ~~~odd)
    z := z.assignIf Element.zero (orderTwo &&& ~~~odd) }

/-- Gives the point at infinity the numerator one. -/
def normalizeInfinity (point : Point) : Point :=
  { point with x := point.x.assignIf Element.one point.z.isZero }

/-- The multiple of a point by a scalar. -/
def scale (point : Point) (scalar : Bytes) : Point :=
  if point.isInfinity then
    point
  else
    let x1 := point.affine
    let rungs := ladder x1 (Scalar.bits scalar)
    let multiple : Point := { x := rungs.x2, z := rungs.z2 }
    (multiple.repairOrderTwo x1.isZero (Scalar.isOdd scalar)).normalizeInfinity

/-- The affine x-coordinate in big-endian form, unless at infinity. -/
def toBytes (point : Point) : Except Failure Bytes :=
  if point.isInfinity then
    .error .pointAtInfinity
  else
    .ok point.affine.toBigEndian

/-- Whether two points are the same, by their cross products. -/
def eq (left right : Point) : Choice :=
  (left.x.mul right.z).eq (right.x.mul left.z)

/-- The coordinates of another point, put in place. -/
def copyFrom (_point source : Point) : Point :=
  { x := source.x, z := source.z }

end Point

end ModularLadder.Curve25519
