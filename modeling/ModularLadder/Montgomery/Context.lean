import ModularLadder.Bytes
import ModularLadder.Montgomery.Reduction
import ModularLadder.Words.Comparison
import ModularLadder.Words.Encoding

/-!
# Montgomery contexts

A context is made once for an odd modulus `N > 1`, given as a big-endian byte
string, and holds what arithmetic modulo `N` needs beforehand.  With
`R = 2^(64 * w)` for the width `w`, a number `x` is represented by
`x * R mod N`, its Montgomery form.

A byte string makes a context unless it is empty, which is missing data, or
stands for an even number or for one, which are not admissible values.
-/

namespace ModularLadder.Montgomery

/-- An odd modulus `N > 1` with the constants of its arithmetic. -/
structure Context extends Reducer where
  /-- The length in bytes of the string that gave the modulus. -/
  modulusLength : Nat
  /-- `R ^ 2` modulo `N`, which takes numbers into Montgomery form. -/
  radixSquared : Words
  /-- `R` modulo `N`, the Montgomery form of one. -/
  one : Words
  /-- `N - 2` as a plain number, the exponent of inversion. -/
  modulusMinusTwo : Words

namespace Context

/--
Doubles a number below the modulus and subtracts the modulus once if the
double has reached it.
-/
def doubleModulo (modulus number : Words) : Words :=
  let doubled := Words.double number
  let reduced := Words.sub doubled.result modulus
  Words.assignIf doubled.result reduced.result
    (Choice.ofBit doubled.carry ||| ~~~Choice.ofBit reduced.carry)

/-- The number one doubled a given number of times modulo the modulus. -/
def powerOfTwoModulo (modulus : Words) : (exponent : Nat) → Words
  | 0 => Words.setWord (Words.zeros modulus.length) 1
  | exponent + 1 => doubleModulo modulus (powerOfTwoModulo modulus exponent)

/-- The context for a modulus in big-endian form. -/
def ofBytes (modulusBytes : Bytes) : Except Failure Context := do
  if modulusBytes.isEmpty then
    throw .notEnoughData
  let width := Words.widthOfBytes modulusBytes.length
  let modulus := Words.ofBigEndian (Words.zeros width) modulusBytes
  if modulus.getD 0 0 &&& 1 == 0 then
    throw .value
  if (Words.isOne modulus).isSet then
    throw .value
  let reducer := Reducer.ofModulus modulus
  let radixSquared := powerOfTwoModulo modulus (2 * 64 * width)
  let two := Words.setWord (Words.zeros width) 2
  let plainOne := Words.setWord (Words.zeros width) 1
  return {
    toReducer := reducer
    modulusLength := modulusBytes.length
    radixSquared := radixSquared
    one := (reducer.multiply plainOne radixSquared).evaluate width
    modulusMinusTwo := (Words.sub modulus two).result }

/-- The number zero, which is its own Montgomery form. -/
def zero (context : Context) : Words :=
  Words.zeros context.width

/-- The number one outside Montgomery form. -/
def plainOne (context : Context) : Words :=
  Words.setWord context.zero 1

end Context

end ModularLadder.Montgomery
