import ModularLadder.Curve25519.Point

/-!
# Key agreement on Curve25519

The function takes a scalar and an x-coordinate in 32 little-endian bytes each
and answers with the x-coordinate of the multiple.  Any x-coordinate is
accepted: its highest bit is ignored and the rest is taken modulo the prime.
The point at infinity is answered by zero.

A scalar is used as it is.  Clamping makes it a multiple of the cofactor and
sets its length.
-/

namespace ModularLadder.Curve25519

open Field25519 (Element)

/--
Clamps a little-endian scalar: the three lowest bits and the highest one are
cleared, and the highest but one is set.
-/
def clamp (scalar : Bytes) : Bytes :=
  scalar.mapIdx fun index byte =>
    if index = 0 then
      byte &&& 248
    else if index = 31 then
      (byte &&& 127) ||| 64
    else
      byte

/-- The x-coordinate of the multiple of a point, all little-endian. -/
def agree (scalar u : Bytes) : Bytes :=
  let x1 := Element.ofLittleEndian u
  let rungs := ladder x1 (Scalar.bits scalar.reverse)
  (rungs.x2.mul rungs.z2.inverse).toLittleEndian

end ModularLadder.Curve25519
