/-!
# Machine words

The unit of all long arithmetic is a 64-bit word.  A sum or a difference of
two words is returned together with the bit carried out of it.  That bit is
not read off a comparison: it is computed from the operands' and the result's
bits alone, by the formula that is true of the highest bit of any sum.
-/

namespace ModularLadder

/-- A machine word of 64 bits. -/
abbrev Word := UInt64

/--
The outcome of a fixed-width operation: the part that fits, and what is
carried (or borrowed) beyond it.
-/
structure Carried (α : Type) where
  carry : Word
  result : α
  deriving Repr

namespace Word

/-- Number of bits of a word. -/
def bitWidth : Nat := 64

/-- Number of bytes of a word. -/
def byteWidth : Nat := 8

/--
One for a nonzero word and zero otherwise: a word or its negation has the
highest bit set unless both are zero.
-/
def isNonzero (word : Word) : Word :=
  (word ||| -word) >>> 63

/-- One for zero and zero otherwise. -/
def isZero (word : Word) : Word :=
  1 ^^^ isNonzero word

/--
The sum of two words and its carry.  A carry leaves the highest place if both
operands have that bit, or if one of them has it and the sum lacks it.
-/
def add (left right : Word) : Carried Word :=
  let sum := left + right
  { carry := (((left ||| right) &&& ~~~sum) ||| (left &&& right)) >>> 63
    result := sum }

/-- The sum of two words and a carry of at most one. -/
def addWithCarry (left right carry : Word) : Carried Word :=
  let first := add left carry
  let second := add first.result right
  { carry := first.carry + second.carry
    result := second.result }

/--
The difference of two words and its borrow.  A borrow enters the highest place
if the subtrahend or the difference has that bit where the minuend lacks it,
or if both of the former have it.
-/
def sub (left right : Word) : Carried Word :=
  let difference := left - right
  { carry :=
      (((difference ||| right) &&& ~~~left) ||| (right &&& difference)) >>> 63
    result := difference }

/-- The difference of two words less a borrow of at most one. -/
def subWithBorrow (left right borrow : Word) : Carried Word :=
  let first := sub left borrow
  let second := sub first.result right
  { carry := first.carry + second.carry
    result := second.result }

/--
The word whose lowest `count` bits are set, for a count of at most 64.  The
full width is treated apart, since a shift by it is a shift by zero.
-/
def lowMask (count : Nat) : Word :=
  let lower : Word := (1 <<< UInt64.ofNat (count % 64)) - 1
  let full : Word := 0 - UInt64.ofNat (count / 64)
  lower ||| full

/-- The bits of a word, least significant first. -/
def bits (word : Word) : List Bool :=
  (List.range 64).map fun position =>
    (word >>> UInt64.ofNat position) &&& 1 != 0

/-- The bytes of a word, least significant first. -/
def littleEndianBytes (word : Word) : List UInt8 :=
  (List.range 8).map fun position =>
    (word >>> UInt64.ofNat (8 * position)).toUInt8

end Word

end ModularLadder
