import ModularLadder.Word

/-!
# Products of words

The product of two words has two words.  It is computed either at once in
double width, or from the four products of 32-bit lanes on machines that
multiply only within a word.  Long arithmetic takes the method as a
parameter, and its results do not depend on it.
-/

namespace ModularLadder

/-- A number below `2^128`, as its high and its low word. -/
structure DoubleWord where
  high : Word
  low : Word
  deriving DecidableEq, Repr

namespace DoubleWord

/-- The number that the two words stand for. -/
def value (double : DoubleWord) : Nat :=
  (1 <<< 64) * double.high.toNat + double.low.toNat

end DoubleWord

namespace Word

/-- The upper 32 bits of a word. -/
def highLane (word : Word) : Word :=
  word >>> 32

/-- The lower 32 bits of a word. -/
def lowLane (word : Word) : Word :=
  word &&& lowMask 32

/--
The product from the four products of lanes.  The two mixed products straddle
the words: their low lanes are added to the low word, whose carries go up, and
their high lanes to the high word.
-/
def laneProduct (left right : Word) : DoubleWord :=
  let lowLow := lowLane left * lowLane right
  let lowHigh := lowLane left * highLane right
  let highLow := highLane left * lowLane right
  let highHigh := highLane left * highLane right
  let first := add lowLow (lowLane lowHigh <<< 32)
  let second := add first.result (lowLane highLow <<< 32)
  { high :=
      highHigh + first.carry + highLane lowHigh + second.carry +
        highLane highLow
    low := second.result }

/-- The product computed in double width. -/
def wideProduct (left right : Word) : DoubleWord :=
  let product := left.toNat * right.toNat
  { high := UInt64.ofNat (product >>> 64)
    low := UInt64.ofNat product }

/-- How a product of two words is computed. -/
inductive ProductMethod where
  /-- From 32-bit lanes. -/
  | lanes
  /-- In double width. -/
  | wide
  deriving DecidableEq, Repr

/-- The product by a given method. -/
def product : ProductMethod → (left right : Word) → DoubleWord
  | .lanes => laneProduct
  | .wide => wideProduct

/--
The sum of a product and two more words.  It still fits two words, so the high
word takes up both carries without overflow.
-/
def mulAdd
    (method : ProductMethod)
    (addend left right carry : Word) :
    DoubleWord :=
  let product := product method left right
  let first := add addend carry
  let second := add first.result product.low
  { high := product.high + first.carry + second.carry
    low := second.result }

end Word

end ModularLadder
