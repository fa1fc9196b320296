import ModularLadder.ScatterTable.Keystream
import ModularLadder.Word.Choice
import ModularLadder.Words.Encoding

/-!
# Scattered tables of numbers

A table holds a few numbers of equal width such that reading one of them
touches the same memory as reading any other.  Every number is cut into pieces
of `64 / count` bytes.  The pieces with one index, one of each number, share a
line of 64 bytes.  Their order within the line is a permutation of the slots
that a scramble word selects, another one for every line.

A number is fetched by going through all slots of all lines and masking out
everything but the wanted piece.  What is fetched does not depend on the
scramble words.
-/

namespace ModularLadder

/-- One line of a table: a scramble word and 64 bytes of pieces. -/
structure ScatterLine where
  scramble : UInt16
  bytes : Bytes

/-- Numbers of equal width in scattered layout. -/
structure ScatterTable where
  /-- How many numbers there are. -/
  count : Nat
  /-- The length of each number in bytes. -/
  byteLength : Nat
  lines : List ScatterLine

namespace ScatterTable

/-- The number of bytes in a line. -/
def lineLength : Nat :=
  64

/-- The admissible numbers of entries: the powers of two from 2 to 64. -/
def admissibleCounts : List Nat :=
  [2, 4, 8, 16, 32, 64]

/-- The number of bytes of one piece. -/
def pieceLength (count : Nat) : Nat :=
  lineLength / count

/-- The number of lines for numbers of the given length in bytes. -/
def lineCount (count byteLength : Nat) : Nat :=
  (byteLength + pieceLength count - 1) / pieceLength count

/--
The slot of a number within a line.  The multiplier is odd, so that the slots
of all numbers are different, whatever the scramble word.
-/
def slot (scramble : UInt16) (count index : Nat) : Nat :=
  let offset := scramble.toNat &&& 0xff
  let multiplier := (scramble.toNat >>> 8) ||| 1
  (offset + index * multiplier) &&& (count - 1)

/-- The piece of a number with the given index; the last one may be short. -/
def piece (count index : Nat) (bytes : Bytes) : Bytes :=
  (bytes.drop (index * pieceLength count)).take (pieceLength count)

/-- Puts bytes in place of as many others, from a position on. -/
def overwrite (position : Nat) (replacement bytes : Bytes) : Bytes :=
  bytes.take position ++ replacement ++
    bytes.drop (position + replacement.length)

/-- Stores the pieces of one number, one in each line. -/
def store
    (count index : Nat)
    (number : Words)
    (lines : List ScatterLine) :
    List ScatterLine :=
  let bytes := number.flatMap Word.littleEndianBytes
  lines.mapIdx fun lineIndex line =>
    let position := slot line.scramble count index * pieceLength count
    { line with
      bytes := overwrite position (piece count lineIndex bytes) line.bytes }

/-- Stores numbers one after the other, the first of them at an index. -/
def storeAll
    (count : Nat) :
    (index : Nat) → List Words → List ScatterLine → List ScatterLine
  | _, [], lines => lines
  | index, number :: numbers, lines =>
    storeAll count (index + 1) numbers (store count index number lines)

/--
The table of the given numbers, with the scramble word of each line taken from
a stream.
-/
def scatter
    (numbers : List Words)
    (scramble : Nat → UInt16) :
    Except Failure ScatterTable := do
  let count := numbers.length
  if !admissibleCounts.contains count then
    throw .value
  let width := (numbers.headD []).length
  if width == 0 then
    throw .notEnoughData
  if numbers.any fun number => number.length != width then
    throw .value
  let byteLength := 8 * width
  let emptyLines :=
    (List.range (lineCount count byteLength)).map fun index =>
      { scramble := scramble index
        bytes := List.replicate lineLength 0 : ScatterLine }
  return {
    count := count
    byteLength := byteLength
    lines := storeAll count 0 numbers emptyLines }

/--
The piece in one slot of a line, gathered by masking: every slot is read and
all but the wanted one are masked out.
-/
def gatherPiece (count wanted : Nat) (line : ScatterLine) : Bytes :=
  (List.range count).foldl
    (fun gathered index =>
      let hit := Word.eq (UInt64.ofNat index) (UInt64.ofNat wanted)
      gathered.zipWith
        (fun kept byte => kept ||| hit.select8 0 byte)
        (piece count index line.bytes))
    (List.replicate (pieceLength count) 0)

/-- Fills the destination with the number that has the given index. -/
def gather
    (table : ScatterTable)
    (destination : Words)
    (index : Nat) :
    Words :=
  let bytes :=
    table.lines.flatMap fun line =>
      gatherPiece table.count (slot line.scramble table.count index) line
  Words.ofLittleEndian destination (bytes.take table.byteLength)

end ScatterTable

end ModularLadder
