import ModularLadder.Bytes
import ModularLadder.Word.Choice

/-!
# Scalars

A scalar is a big-endian byte string of any length.  A ladder climbs along its
bits, most significant first, and reads each of them as a choice.  Leading
zeros only make the climb longer, and an empty string is the scalar zero.
-/

namespace ModularLadder.Scalar

/-- The bits of a byte as choices, most significant first. -/
def byteBits (byte : UInt8) : List Choice :=
  ([7, 6, 5, 4, 3, 2, 1, 0] : List UInt8).map fun position =>
    Choice.ofBit ((byte >>> position) &&& 1).toUInt64

/-- The bits of a scalar as choices, most significant first. -/
def bits (scalar : Bytes) : List Choice :=
  scalar.flatMap byteBits

/-- Whether a scalar is odd, by the lowest bit of its last byte. -/
def isOdd (scalar : Bytes) : Choice :=
  match scalar.getLast? with
  | none => Choice.no
  | some byte => Choice.ofBit (byte &&& 1).toUInt64

end ModularLadder.Scalar
