import ModularLadder.Montgomery.Context

/-!
# Numbers into and out of Montgomery form

A number enters Montgomery form by a multiplication with `R ^ 2` and leaves it
by a multiplication with one.  Byte strings that enter may have any length and
any number of leading zeros, as long as their number is below the modulus.
The buffer of a number that leaves must be at least as long as the string
that gave the modulus; it is filled up with leading zeros, and left alone if
it is too short.
-/

namespace ModularLadder.Montgomery

/--
A computation that fills an output buffer of given length.  When it fails, the
buffer is whatever had been made of it until then.
-/
abbrev BufferM := ExceptT Failure (StateM Bytes)

namespace Context

/-- The Montgomery form of a big-endian number below the modulus. -/
def encode (context : Context) (number : Bytes) : Except Failure Words := do
  if number.isEmpty then
    throw .notEnoughData
  let digits := number.dropWhile (· == 0)
  if 8 * context.width < digits.length then
    throw .value
  let plain := Words.ofBigEndian context.zero digits
  if !(Words.lt plain context.modulus).isSet then
    throw .value
  return (context.multiply plain context.radixSquared).evaluate context.width

/--
Fills the buffer with the big-endian form of the number that a Montgomery form
stands for.
-/
def decode (context : Context) (number : Words) : BufferM Unit := do
  let buffer : Bytes ← get
  if buffer.length < context.modulusLength then
    throw .notEnoughData
  let plain := (context.multiply number context.plainOne).evaluate context.width
  set (Words.toBigEndian buffer plain)

/--
The Montgomery form of a single word, which need not be below the modulus.
Zero and one are known beforehand; any other word multiplies `R ^ 2`, and the
product is reduced.
-/
def encodeWord (context : Context) (word : Word) : ScratchM Words := do
  if word == 0 then
    return context.zero
  else if word == 1 then
    return context.one
  else
    modify fun scratch =>
      let cleared := Words.clear scratch.accumulator
      let low := cleared.take (context.width + 1)
      let high := cleared.drop (context.width + 1)
      let product := Words.addMul method low context.radixSquared word
      { scratch with accumulator := product.result ++ high }
    context.reduce

/-- The Montgomery form of a single word, computed on fresh temporaries. -/
def ofWord (context : Context) (word : Word) : Words :=
  (context.encodeWord word).evaluate context.width

end Context

end ModularLadder.Montgomery
