/-!
# Byte strings as numbers

Integers enter and leave the library as byte strings, most significant byte
first (big-endian) or last (little-endian).  Both readings are positional in
radix 256, and each has an inverse for a given length.  A string may be empty
and then stands for zero.
-/

namespace ModularLadder

/-- A byte string, in memory order. -/
abbrev Bytes := List UInt8

namespace Bytes

/-- The number written with its most significant byte first. -/
def bigEndianValue (bytes : Bytes) : Nat :=
  bytes.foldl (fun value byte => 256 * value + byte.toNat) 0

/-- The number written with its least significant byte first. -/
def littleEndianValue : Bytes → Nat
  | [] => 0
  | byte :: rest => byte.toNat + 256 * littleEndianValue rest

/--
The lowest `length` bytes of a number, least significant first.  Higher bytes
are dropped and missing ones are zero.
-/
def ofNatLittleEndian : (length value : Nat) → Bytes
  | 0, _ => []
  | length + 1, value =>
    UInt8.ofNat value :: ofNatLittleEndian length (value / 256)

/-- The lowest `length` bytes of a number, most significant first. -/
def ofNatBigEndian (length value : Nat) : Bytes :=
  (ofNatLittleEndian length value).reverse

@[simp]
theorem length_ofNatLittleEndian
    (length value : Nat) :
    (ofNatLittleEndian length value).length = length := by
  induction length generalizing value with
  | zero => rfl
  | succ length ih => simp [ofNatLittleEndian, ih]

@[simp]
theorem length_ofNatBigEndian
    (length value : Nat) :
    (ofNatBigEndian length value).length = length := by
  simp [ofNatBigEndian]

end Bytes

end ModularLadder
