import ModularLadder.Bytes
import ModularLadder.Field25519.Element
import ModularLadder.Word

/-!
# Elements in byte strings

An element is written as 32 bytes, or four 64-bit words, that hold the least
number with its value modulo `p`.  Reading drops bit 255 and accepts every
other number below `2^255`, also one that is not less than `p`.  The canonical
reading accepts exactly what writing produces.

To write an element, its reduced limbs `h` are compared with `p` by the carry
of `h + 19` past bit 255; subtracting `p` then amounts to adding 19 and
dropping that bit.
-/

namespace ModularLadder.Field25519.Element

/-- The length in bytes of an encoded element. -/
def byteLength : Nat :=
  32

/-- Four bytes from a position on, least significant first. -/
def loadWindow (bytes : Bytes) (position : Nat) : UInt64 :=
  ((bytes.drop position).take 4).foldr
    (fun byte window => (window <<< 8) ||| byte.toUInt64) 0

/--
The limb found in a window of four bytes: its lowest bit is at a distance from
the window's, and a mask cuts off what lies above it.
-/
def loadLimb
    (bytes : Bytes)
    (position : Nat)
    (distance mask : UInt64) :
    UInt32 :=
  ((loadWindow bytes position >>> distance) &&& mask).toUInt32

/-- Reads little-endian bytes; bit 255 is ignored. -/
def ofLittleEndian (bytes : Bytes) : Element :=
  { l0 := loadLimb bytes 0 0 0x3ffffff
    l1 := loadLimb bytes 3 2 0x1ffffff
    l2 := loadLimb bytes 6 3 0x3ffffff
    l3 := loadLimb bytes 9 5 0x1ffffff
    l4 := loadLimb bytes 12 6 0x3ffffff
    l5 := loadLimb bytes 16 0 0x1ffffff
    l6 := loadLimb bytes 19 1 0x3ffffff
    l7 := loadLimb bytes 22 3 0x1ffffff
    l8 := loadLimb bytes 25 4 0x3ffffff
    l9 := loadLimb bytes 28 6 0x1ffffff }

/-- Reads big-endian bytes; bit 255 is ignored. -/
def ofBigEndian (bytes : Bytes) : Element :=
  ofLittleEndian bytes.reverse

/-- Reads words, least significant first; bit 255 is ignored. -/
def ofWords (words : List Word) : Element :=
  ofLittleEndian (words.flatMap Word.littleEndianBytes)

/-- The limbs of the least number with an element's value modulo `p`. -/
def canonical (x : Element) : Element :=
  x.reduce.subtractPrime

/--
Packs limbs of nominal width into four words.  The limbs with index two and
seven lie across two words.
-/
def pack (x : Element) : List Word :=
  let z := x.widen
  [ z.l0 ||| (z.l1 <<< 26) ||| (z.l2 <<< 51),
    (z.l2 >>> 13) ||| (z.l3 <<< 13) ||| (z.l4 <<< 38),
    z.l5 ||| (z.l6 <<< 25) ||| (z.l7 <<< 51),
    (z.l7 >>> 13) ||| (z.l8 <<< 12) ||| (z.l9 <<< 38) ]

/-- The four words of an element's encoding, least significant first. -/
def toWords (x : Element) : List Word :=
  x.canonical.pack

/-- The 32 bytes of an element's encoding, least significant first. -/
def toLittleEndian (x : Element) : Bytes :=
  x.toWords.flatMap Word.littleEndianBytes

/-- The 32 bytes of an element's encoding, most significant first. -/
def toBigEndian (x : Element) : Bytes :=
  x.toLittleEndian.reverse

/-- Reads 32 big-endian bytes of a number below `p`, and nothing else. -/
def ofCanonical? (bytes : Bytes) : Option Element :=
  let x := ofBigEndian bytes
  if x.toBigEndian = bytes then
    some x
  else
    none

/-- Whether two elements have the same value modulo `p`. -/
def eq (x y : Element) : Choice :=
  let differences :=
    (x.toWords.zipWith (· ^^^ ·) y.toWords).foldl (· ||| ·) 0
  ~~~Choice.ofNonzero differences

/-- Whether an element has the value zero modulo `p`. -/
def isZero (x : Element) : Choice :=
  x.eq zero

end ModularLadder.Field25519.Element
