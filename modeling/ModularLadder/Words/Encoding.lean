import ModularLadder.Bytes
import ModularLadder.Words

/-!
# Long numbers in byte strings

The word with index `i` of a number is held by the eight bytes that are `8 * i`
places away from the string's least significant end.  That end is the back of
a big-endian and the front of a little-endian string.  The string's length
need not be a multiple of eight: the highest word is then only partly present
and its missing bytes are zero.

Storing goes byte by byte over the destination.  Bytes that have no place in
it are dropped, and places above the number's words are filled with zeros.
-/

namespace ModularLadder.Words

/-- The word at an index of a big-endian string; beyond the string, zero. -/
def loadBigEndian (bytes : Bytes) (index : Nat) : Word :=
  let stop := bytes.length - 8 * index
  let piece := (bytes.take stop).drop (stop - 8)
  piece.foldl (fun word byte => (word <<< 8) ||| byte.toUInt64) 0

/-- The word at an index of a little-endian string; beyond the string, zero. -/
def loadLittleEndian (bytes : Bytes) (index : Nat) : Word :=
  let piece := (bytes.drop (8 * index)).take 8
  piece.foldr (fun byte word => (word <<< 8) ||| byte.toUInt64) 0

/-- Fills every word of the destination from a big-endian string. -/
def ofBigEndian (destination : Words) (bytes : Bytes) : Words :=
  destination.mapIdx fun index _ => loadBigEndian bytes index

/-- Fills every word of the destination from a little-endian string. -/
def ofLittleEndian (destination : Words) (bytes : Bytes) : Words :=
  destination.mapIdx fun index _ => loadLittleEndian bytes index

/-- The byte of a number at a place counted from the least significant one. -/
def byteAt (number : Words) (place : Nat) : UInt8 :=
  (number.getD (place / 8) 0 >>> UInt64.ofNat (8 * (place % 8))).toUInt8

/-- Fills every byte of the destination, the least significant one last. -/
def toBigEndian (destination : Bytes) (number : Words) : Bytes :=
  destination.mapIdx fun index _ =>
    byteAt number (destination.length - 1 - index)

/-- Fills every byte of the destination, the least significant one first. -/
def toLittleEndian (destination : Bytes) (number : Words) : Bytes :=
  destination.mapIdx fun index _ => byteAt number index

@[simp]
theorem length_ofBigEndian
    (destination : Words)
    (bytes : Bytes) :
    (ofBigEndian destination bytes).length = destination.length := by
  simp [ofBigEndian]

@[simp]
theorem length_ofLittleEndian
    (destination : Words)
    (bytes : Bytes) :
    (ofLittleEndian destination bytes).length = destination.length := by
  simp [ofLittleEndian]

@[simp]
theorem length_toBigEndian
    (destination : Bytes)
    (number : Words) :
    (toBigEndian destination number).length = destination.length := by
  simp [toBigEndian]

@[simp]
theorem length_toLittleEndian
    (destination : Bytes)
    (number : Words) :
    (toLittleEndian destination number).length = destination.length := by
  simp [toLittleEndian]

end ModularLadder.Words
