import ModularLadder.BitWindow
import ModularLadder.Montgomery.Encoding
import ModularLadder.ScatterTable

/-!
# Powers and products of byte strings

Modular exponentiation and multiplication take their operands as big-endian
byte strings of the modulus' length and fill an output buffer of that length.
The modulus has to be odd and above one, a base or factor below the modulus.

Exponentiation reads the exponent in digits of four bits.  The sixteen powers
of the base that a digit may call for are kept in a scattered table.  Each
digit costs four squarings and one product.  Leading zero bytes of the
exponent are skipped, and a zero exponent gives one.

Failures leave the output buffer as it was.
-/

namespace ModularLadder.Power

open Montgomery (BufferM Context Scratch ScratchM)

/-- The number of bits of one digit of an exponent. -/
def windowSize : Nat :=
  4

/-- The number of powers in the table: one for each digit. -/
def tableSize : Nat :=
  1 <<< windowSize

/-- The lengths of all operands must be that of a nonempty modulus. -/
def checkLengths
    (modulus : Bytes)
    (lengths : List Nat) :
    Except Failure Unit := do
  if modulus.isEmpty then
    throw .notEnoughData
  if lengths.any fun length => length != modulus.length then
    throw .value

/-- Successive powers of a base, each the product of its predecessor. -/
def successivePowers
    (context : Context)
    (base : Words) :
    (count : Nat) → (previous : Words) → ScratchM (List Words)
  | 0, _ => return []
  | count + 1, previous => do
    let power ← context.multiply previous base
    let powers ← successivePowers context base count power
    return power :: powers

/--
The powers of a base with the exponents from zero to fifteen.  The factors of
the second power are one and the same number, so that it is found by squaring.
-/
def powerTable (context : Context) (base : Words) : ScratchM (List Words) := do
  let squared ← context.square base
  let powers ← successivePowers context base (tableSize - 3) squared
  return context.one :: base :: squared :: powers

/-- Squares a number a given number of times. -/
def squareTimes
    (context : Context) :
    (count : Nat) → (number : Words) → ScratchM Words
  | 0, number => return number
  | count + 1, number => do
    let squared ← context.square number
    squareTimes context count squared

/-- Appends one digit to the exponent of a power. -/
def appendDigit
    (context : Context)
    (table : ScatterTable)
    (power : Words)
    (digit : Nat) :
    ScratchM Words := do
  let raised ← squareTimes context windowSize power
  context.multiply raised (table.gather context.zero digit)

/-- The power with the exponent written by the given digits. -/
def ofDigits
    (context : Context)
    (table : ScatterTable)
    (digits : List Nat) :
    ScratchM Words :=
  digits.foldlM (appendDigit context table) context.one

/--
Fills the buffer with a power modulo an odd number, the table scrambled by the
given stream.  The digits are appended on the temporaries that the table of
powers has left behind.
-/
def powWith
    (scramble : Nat → UInt16)
    (base exponent modulus : Bytes) :
    BufferM Unit := do
  let buffer : Bytes ← get
  checkLengths modulus [buffer.length, base.length, exponent.length]
  let context ← Context.ofBytes modulus
  let base ← context.encode base
  let (powers, scratch) :=
    (powerTable context base).run (Scratch.ofWidth context.width)
  let table ← ScatterTable.scatter powers scramble
  let digits :=
    (BitWindow.ofBytes windowSize (exponent.dropWhile (· == 0))).digits
  let (power, _) := (ofDigits context table digits).run scratch
  context.decode power

/-- Fills the buffer with a power modulo an odd number. -/
def pow
    (base exponent modulus : Bytes)
    (seed : UInt64) :
    BufferM Unit :=
  powWith (ScatterTable.scrambleWord seed) base exponent modulus

/-- Fills the buffer with a product modulo an odd number. -/
def multiply (left right modulus : Bytes) : BufferM Unit := do
  let buffer : Bytes ← get
  checkLengths modulus [buffer.length, left.length, right.length]
  let context ← Context.ofBytes modulus
  let left ← context.encode left
  let right ← context.encode right
  context.decode ((context.multiply left right).evaluate context.width)

end ModularLadder.Power
