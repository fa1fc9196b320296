import ModularLadder.Montgomery.Context

/-!
# Arithmetic on Montgomery forms

Numbers below the modulus `N` are added, subtracted, negated and inverted in
Montgomery form.  Together with the multiplication and the squaring of
reduction, these operations are the ones of the integers modulo `N`.  As every
number below `N` has one Montgomery form only, zero is told by its words and
equality word by word.

Sums and differences compute both candidates for the result, with and without
the correction by `N`, and select one of them by a mask.  The in-place forms
reach the same results through the zero-extending sums of long numbers.
-/

namespace ModularLadder.Montgomery.Context

/--
Replaces a sum by its difference to `N`, unless the sum is below `N`.
-/
def correctSum
    (context : Context)
    (sum : Carried Words) :
    ScratchM Words := do
  let reduced := Words.sub sum.result context.modulus
  modify fun scratch => { scratch with difference := reduced.result }
  return Words.assignIf sum.result reduced.result
    (Choice.ofBit sum.carry ||| ~~~Choice.ofBit reduced.carry)

/--
Replaces a difference by its sum with `N` if the difference has borrowed.
-/
def correctDifference
    (context : Context)
    (difference : Carried Words) :
    ScratchM Words := do
  let restored := Words.add difference.result context.modulus
  modify fun scratch => { scratch with difference := restored.result }
  return Words.assignIf difference.result restored.result
    (Choice.ofBit difference.carry)

/-- The sum of two numbers. -/
def add (context : Context) (left right : Words) : ScratchM Words :=
  context.correctSum (Words.add left right)

/-- The sum of two numbers, put in place of the first one. -/
def addInPlace (context : Context) (left right : Words) : ScratchM Words :=
  context.correctSum (Words.addShort left right)

/-- The difference of two numbers. -/
def sub (context : Context) (left right : Words) : ScratchM Words :=
  context.correctDifference (Words.sub left right)

/-- The difference of two numbers, put in place of the first one. -/
def subInPlace (context : Context) (left right : Words) : ScratchM Words :=
  context.correctDifference (Words.subShort left right)

/-- The negation of a number: its difference to `N`, but zero for zero. -/
def neg (context : Context) (number : Words) : Words :=
  let complement := (Words.sub context.modulus number).result
  let isZero := Words.isZero number
  complement.map fun word => isZero.select word 0

/--
The bits of `N - 2` from the highest set one down.
-/
def inversionBits (context : Context) : List Bool :=
  (context.modulusMinusTwo.flatMap Word.bits).reverse.dropWhile (! ·)

/-- One step of exponentiation: a squaring, and a product for a set bit. -/
def powerStep
    (context : Context)
    (base power : Words)
    (bit : Bool) :
    ScratchM Words := do
  let squared ← context.square power
  if bit then
    context.multiply squared base
  else
    return squared

/--
The power of a number with exponent `N - 2`.  For a prime `N` this is the
inverse of the number, and zero for zero; for a composite `N` it is the power
all the same.
-/
def inverse (context : Context) (number : Words) : ScratchM Words :=
  context.inversionBits.foldlM (context.powerStep number) context.one

/-- Whether a number is the Montgomery form of one. -/
def isOne (context : Context) (number : Words) : Choice :=
  Words.eq number context.one

end ModularLadder.Montgomery.Context
