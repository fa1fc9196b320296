import ModularLadder.Field25519.LimbArithmetic
import ModularLadder.Word.Choice

/-!
# Elements modulo `2^255 - 19`

An element is a number of ten 32-bit limbs, taken modulo `p = 2^255 - 19`.
Two bounds on the limbs make the arithmetic safe:

* *reduced*: even limbs below `2^26` and odd limbs at most `2^25`;
* *loose*: even limbs below `2^27` and odd limbs below `2^26 + 2^6`.

The sum of two reduced elements is loose, without any carry being moved.  All
other operations take loose elements and answer with reduced ones: they work
on 64-bit limbs and then move the carries, twice around, since what leaves the
highest limb comes back at the lowest one with the factor 19.
-/

namespace ModularLadder.Field25519

/-- The modulus. -/
def prime : Nat :=
  (1 <<< 255) - 19

/-- Ten 64-bit limbs, in which products are accumulated. -/
abbrev Accumulators := TenLimbs UInt64

/-- An element, as ten 32-bit limbs. -/
abbrev Element := TenLimbs UInt32

namespace Accumulators

/-- The number that the limbs stand for. -/
def value (z : Accumulators) : Nat :=
  (z.map UInt64.toNat).weighted

/-- A reduced element with the same value modulo `p`, for limbs below `2^63`. -/
def reduce (z : Accumulators) : Element :=
  z.carryAround.map UInt64.toUInt32

end Accumulators

namespace Element

/-- The number that the limbs of an element stand for. -/
def value (x : Element) : Nat :=
  (x.map UInt32.toNat).weighted

/-- Even limbs are below `2^26` and odd limbs are at most `2^25`. -/
def Reduced (x : Element) : Prop :=
  x.Alternating
    (fun limb => limb.toNat < 1 <<< 26)
    (fun limb => limb.toNat ≤ 1 <<< 25)

/-- Even limbs are below `2^27` and odd limbs are below `2^26 + 2^6`. -/
def Loose (x : Element) : Prop :=
  x.Alternating
    (fun limb => limb.toNat < 1 <<< 27)
    (fun limb => limb.toNat < (1 <<< 26) + (1 <<< 6))

instance (x : Element) : Decidable x.Reduced :=
  inferInstanceAs (Decidable (TenLimbs.Alternating _ _ x))

instance (x : Element) : Decidable x.Loose :=
  inferInstanceAs (Decidable (TenLimbs.Alternating _ _ x))

/-- The element zero. -/
def zero : Element :=
  { l0 := 0
    l1 := 0
    l2 := 0
    l3 := 0
    l4 := 0
    l5 := 0
    l6 := 0
    l7 := 0
    l8 := 0
    l9 := 0 }

/-- The element one. -/
def one : Element :=
  { zero with l0 := 1 }

/-- The limbs of an element with room for products. -/
def widen (x : Element) : Accumulators :=
  x.map UInt32.toUInt64

/-- A reduced element with the same value modulo `p`. -/
def reduce (x : Element) : Element :=
  Accumulators.reduce x.widen

/-- The sum limb by limb, which is loose for reduced operands. -/
def add (x y : Element) : Element :=
  x.sum y

/-- The difference of two elements. -/
def sub (x y : Element) : Element :=
  Accumulators.reduce (x.widen.raisedDifference y.widen)

/-- The negation of an element. -/
def neg (x : Element) : Element :=
  sub zero x

/-- The product of two elements. -/
def mul (x y : Element) : Element :=
  Accumulators.reduce (x.widen.product y.widen)

/-- The square of an element. -/
def square (x : Element) : Element :=
  mul x x

/-- An element squared a given number of times. -/
def squareTimes : (count : Nat) → (x : Element) → Element
  | 0, x => x
  | count + 1, x => squareTimes count x.square

/-- The product of an element and a 32-bit number. -/
def mulSmall (x : Element) (factor : UInt32) : Element :=
  Accumulators.reduce (x.widen.map (· * factor.toUInt64))

/-- Two elements, exchanged if the choice is set. -/
def swapIf (x y : Element) (choice : Choice) : Element × Element :=
  let difference := (x.zipWith (· ^^^ ·) y).map (choice.select32 0)
  (x.zipWith (· ^^^ ·) difference, y.zipWith (· ^^^ ·) difference)

/-- An element, replaced by another one if the choice is set. -/
def assignIf (x replacement : Element) (choice : Choice) : Element :=
  x.zipWith choice.select32 replacement

end Element

end ModularLadder.Field25519
