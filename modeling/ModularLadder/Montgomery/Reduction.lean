import ModularLadder.Word.Inverse
import ModularLadder.Words.Product
import ModularLadder.Words.Selection

/-!
# Montgomery reduction

Let `N` be an odd modulus of `w` words and `R = 2^(64 * w)`.  Reduction maps a
number `t < N * R` to the number below `N` that is congruent to `t / R`.  It
adds multiples of `N` until the lowest `w` words are zero, drops these words,
and subtracts `N` once if the rest is still too large.

Two words are cleared by one pass.  The second multiplier is found without
waiting for the first one's pass: the word that this pass would leave in the
second place is predicted from the two lowest words of `N`.

The temporaries are kept in a scratch area that one computation hands on to
the next.  What it holds at the start of an operation is left over from
earlier ones and has no influence on the result.
-/

namespace ModularLadder.Montgomery

/-- Temporaries of modular arithmetic. -/
structure Scratch where
  /-- A product of double width, and one more word for the last carry. -/
  accumulator : Words
  /-- A candidate for the reduced number. -/
  difference : Words

/-- Fresh temporaries for numbers of the given width. -/
def Scratch.ofWidth (width : Nat) : Scratch :=
  { accumulator := Words.zeros (2 * width + 1)
    difference := Words.zeros width }

/-- A computation that uses the temporaries. -/
abbrev ScratchM := StateM Scratch

/-- The result of a computation on fresh temporaries of a width. -/
def ScratchM.evaluate
    {α : Type}
    (computation : ScratchM α)
    (width : Nat) :
    α :=
  (StateT.run computation (Scratch.ofWidth width)).1

/--
The method by which single words are multiplied.  Lanes need no number wider
than a word.
-/
def method : Word.ProductMethod :=
  .lanes

/-- An odd modulus with the constant that reduction needs. -/
structure Reducer where
  /-- The modulus `N`. -/
  modulus : Words
  /-- The negated inverse of `N` modulo `2^64`. -/
  negInverse : Word

namespace Reducer

/-- Reduction for an odd modulus. -/
def ofModulus (modulus : Words) : Reducer :=
  { modulus := modulus
    negInverse := Word.negInverse (modulus.getD 0 0) }

/-- The width of the modulus and of all numbers below it. -/
def width (reducer : Reducer) : Nat :=
  reducer.modulus.length

/--
The multiplier of `N` that clears a word: it is chosen such that the sum of the
word and the multiple's lowest word is zero modulo `2^64`.
-/
def multiplier (reducer : Reducer) (word : Word) : Word :=
  word * reducer.negInverse

/--
The word that stands in the second place once the multiple of `N` by the first
multiplier has been added to the two words `lowest` and `second`.
-/
def predictedWord
    (reducer : Reducer)
    (lowest second : Word) :
    Word :=
  let factor := reducer.multiplier lowest
  let product := Word.product method factor (reducer.modulus.getD 0 0)
  let sum := Word.add product.low lowest
  second + reducer.modulus.getD 1 0 * factor + product.high + sum.carry

/-- Adds the multiple of `N` that clears the two lowest words. -/
def clearPair (reducer : Reducer) (accumulator : Words) : Carried Words :=
  let lowest := accumulator.getD 0 0
  let second := accumulator.getD 1 0
  Words.addMulPair method accumulator reducer.modulus
    (reducer.multiplier lowest)
    (reducer.multiplier (reducer.predictedWord lowest second))

/-- Adds the multiple of `N` that clears the lowest word. -/
def clearWord (reducer : Reducer) (accumulator : Words) : Carried Words :=
  Words.addMul method accumulator reducer.modulus
    (reducer.multiplier (accumulator.getD 0 0))

/--
Clears a number of words, two at a time and an odd last one alone.  Words once
cleared are not touched again.
-/
def clearLow (reducer : Reducer) : (count : Nat) → Words → Words.Passes
  | 0, accumulator => { carries := [], words := accumulator }
  | 1, accumulator =>
    let pass := reducer.clearWord accumulator
    { carries := [pass.carry], words := pass.result }
  | count + 2, accumulator =>
    let pass := reducer.clearPair accumulator
    let upper := reducer.clearLow count (pass.result.drop 2)
    { carries := pass.carry :: upper.carries
      words := pass.result.take 2 ++ upper.words }

/--
The number below `N` that is congruent to the accumulator's content divided by
`R`.
-/
def reduce (reducer : Reducer) : ScratchM Words := do
  let scratch ← get
  let cleared :=
    (reducer.clearLow reducer.width scratch.accumulator).words
  let quotient := (cleared.drop reducer.width).take reducer.width
  let overflow := cleared.getD (2 * reducer.width) 0
  let reduced := Words.sub quotient reducer.modulus
  set { accumulator := cleared, difference := reduced.result : Scratch }
  return Words.select quotient reduced.result
    (Choice.ofNonzero overflow ||| ~~~Choice.ofBit reduced.carry)

/-- The number congruent to the product of two numbers divided by `R`. -/
def multiply (reducer : Reducer) (left right : Words) : ScratchM Words := do
  modify fun scratch =>
    let storage := scratch.accumulator.take (2 * reducer.width)
    { scratch with
      accumulator := Words.product method storage left right ++ [0] }
  reducer.reduce

/-- The number congruent to the square of a number divided by `R`. -/
def square (reducer : Reducer) (number : Words) : ScratchM Words := do
  modify fun scratch =>
    let storage := scratch.accumulator.take (2 * reducer.width)
    { scratch with
      accumulator := Words.square method storage number ++ [0] }
  reducer.reduce

end Reducer

end ModularLadder.Montgomery
