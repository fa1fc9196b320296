import ModularLadder.Curve448.Point

/-!
# Key agreement on Curve448

The function takes a scalar and an x-coordinate in 56 little-endian bytes each
and answers with the x-coordinate of the multiple.  Any x-coordinate is
accepted and taken modulo the prime, for which one subtraction is enough.  The
point at infinity is answered by zero.

A scalar is used as it is.  Clamping makes it a multiple of the cofactor and
sets its length.
-/

namespace ModularLadder.Curve448

open Field448 (onScratch)

/--
Clamps a little-endian scalar: the two lowest bits are cleared and the highest
one is set.
-/
def clamp (scalar : Bytes) : Bytes :=
  scalar.mapIdx fun index byte =>
    if index = 0 then
      byte &&& 252
    else if index = 55 then
      byte ||| 128
    else
      byte

/-- The big-endian bytes of a little-endian number modulo the prime. -/
def reducedCoordinate (curve : CurveContext) (u : Bytes) : Bytes :=
  let modulus := curve.field.modulus
  let number := Words.ofLittleEndian curve.field.zero u
  let reduced := Words.subIf number modulus (Words.ge number modulus)
  Words.toBigEndian (List.replicate Field448.byteLength 0) reduced.result

/-- The x-coordinate of the multiple of a point, all little-endian. -/
def agree (scalar u : Bytes) : Except Failure Bytes := do
  let curve ← CurveContext.ofIdentity 0
  let base ← Point.ofBytes curve (reducedCoordinate curve u)
  let multiple := base.scale scalar.reverse
  let affine : WorkplaceM Words := do
    let inverse ← onScratch (curve.field.inverse multiple.coordinates.z)
    onScratch (curve.field.multiply multiple.coordinates.x inverse)
  let bytes ←
    Field448.encode curve.field (affine.run multiple.workplace).1
  return bytes.reverse

end ModularLadder.Curve448
