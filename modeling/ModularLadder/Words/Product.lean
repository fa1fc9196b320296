import ModularLadder.Word.Product
import ModularLadder.Words.Sum

/-!
# Products of long numbers

A product is accumulated row by row into cleared storage of twice the width.
A row multiplies the first factor by two words of the second one at once,
which keeps two carries on the way; an odd last word makes a row of its own.
A row starts where the preceding one has left its lowest words for good.

A square needs the product of each pair of different words only once: these
mixed products are summed, the sum is doubled, and the squares of the single
words are added along the diagonal.

The carries out of the rows, of the doubling and of the diagonal are returned
beside the words.  None of them is ever set when the storage has the proper
width.
-/

namespace ModularLadder.Words

open Word (ProductMethod)

/--
Adds the multiple of a number by one word, and an incoming carry, to an
accumulator that has more words than the number.
-/
def addMulFrom
    (method : ProductMethod)
    (factor carry : Word) :
    (accumulator number : Words) → Carried Words
  | accumulator, [] => addWord carry accumulator
  | [], _ :: _ => { carry := carry, result := [] }
  | lowest :: accumulator, word :: number =>
    let sum := Word.mulAdd method lowest word factor carry
    let upper := addMulFrom method factor sum.high accumulator number
    { carry := upper.carry, result := sum.low :: upper.result }

/-- Adds the multiple of a number by one word to a wider accumulator. -/
def addMul
    (method : ProductMethod)
    (accumulator number : Words)
    (factor : Word) :
    Carried Words :=
  addMulFrom method factor 0 accumulator number

/--
Adds two carries of neighbouring weight: the low one at the lowest word and
the high one at the next.
-/
def addCarryPair (low high : Word) (accumulator : Words) : Carried Words :=
  let first := addWord low accumulator
  match first.result with
  | [] => { carry := first.carry + high, result := [] }
  | lowest :: rest =>
    let second := addWord high rest
    { carry := first.carry + second.carry
      result := lowest :: second.result }

/--
Adds the multiple of a number by the two words `low` and `high`, and two
incoming carries, to an accumulator that has at least two words more.
-/
def addMulPairFrom
    (method : ProductMethod)
    (low high carryLow carryHigh : Word) :
    (accumulator number : Words) → Carried Words
  | accumulator, [] => addCarryPair carryLow carryHigh accumulator
  | [], _ :: _ => { carry := carryLow + carryHigh, result := [] }
  | lowest :: accumulator, word :: number =>
    let first := Word.mulAdd method lowest word low carryLow
    let second := Word.mulAdd method first.high word high carryHigh
    let upper :=
      addMulPairFrom method low high second.low second.high
        accumulator number
    { carry := upper.carry, result := first.low :: upper.result }

/--
Adds the multiple of a number by `low + high * 2^64` to an accumulator that
has at least two words more.
-/
def addMulPair
    (method : ProductMethod)
    (accumulator number : Words)
    (low high : Word) :
    Carried Words :=
  addMulPairFrom method low high 0 0 accumulator number

/-- Words reached by a succession of passes, with the carry out of each. -/
structure Passes where
  carries : List Word
  words : Words

/--
Adds the product of two numbers to an accumulator, one row for every two words
of the second factor.
-/
def productRows
    (method : ProductMethod)
    (number : Words) :
    (multiplier accumulator : Words) → Passes
  | [], accumulator => { carries := [], words := accumulator }
  | [last], accumulator =>
    let row := addMul method accumulator number last
    { carries := [row.carry], words := row.result }
  | low :: high :: multiplier, accumulator =>
    let row := addMulPair method accumulator number low high
    let upper := productRows method number multiplier (row.result.drop 2)
    { carries := row.carry :: upper.carries
      words := row.result.take 2 ++ upper.words }

/--
The product of two numbers of equal width, in storage of twice that width.
-/
def product
    (method : ProductMethod)
    (storage left right : Words) :
    Words :=
  (productRows method left right (clear storage)).words

/--
One row of mixed products: a word times each word of the rest, with the last
carry put into the place after them, which no earlier row has written.
-/
def mixedRow
    (method : ProductMethod)
    (factor carry : Word) :
    (rest accumulator : Words) → Words
  | [], [] => []
  | [], _ :: accumulator => carry :: accumulator
  | _ :: _, [] => []
  | word :: rest, lowest :: accumulator =>
    let sum := Word.mulAdd method lowest factor word carry
    sum.low :: mixedRow method factor sum.high rest accumulator

/--
Every product of two different words of a number, each pair once.  The row of
a word starts one place above the word's own square.
-/
def mixedProducts
    (method : ProductMethod) :
    (number accumulator : Words) → Words
  | word :: rest, square :: accumulator =>
    let row := mixedRow method word 0 rest accumulator
    square :: (row.take 1 ++ mixedProducts method rest (row.drop 1))
  | _, accumulator => accumulator

/-- Adds the square of each word at twice the word's place. -/
def addSquaresFrom
    (method : ProductMethod)
    (carry : Word) :
    (number accumulator : Words) → Carried Words
  | word :: rest, low :: high :: accumulator =>
    let square := Word.product method word word
    let lowSum := Word.addWithCarry low square.low carry
    let highSum := Word.addWithCarry high square.high lowSum.carry
    let upper := addSquaresFrom method highSum.carry rest accumulator
    { carry := upper.carry
      result := lowSum.result :: highSum.result :: upper.result }
  | _, accumulator => { carry := carry, result := accumulator }

/-- The stages of squaring: the doubling's carry, then the diagonal's. -/
def squareStages
    (method : ProductMethod)
    (storage number : Words) :
    Passes :=
  let doubled := double (mixedProducts method number (clear storage))
  let complete := addSquaresFrom method 0 number doubled.result
  { carries := [doubled.carry, complete.carry], words := complete.result }

/-- The square of a number, in storage of twice its width. -/
def square
    (method : ProductMethod)
    (storage number : Words) :
    Words :=
  (squareStages method storage number).words

@[simp]
theorem length_addMulFrom
    (method : ProductMethod)
    (factor carry : Word)
    (accumulator number : Words) :
    (addMulFrom method factor carry accumulator number).result.length =
      accumulator.length := by
  induction number generalizing carry accumulator with
  | nil => cases accumulator <;> simp [addMulFrom]
  | cons word number ih =>
    cases accumulator with
    | nil => rfl
    | cons lowest accumulator => simp [addMulFrom, ih]

@[simp]
theorem length_addCarryPair
    (low high : Word)
    (accumulator : Words) :
    (addCarryPair low high accumulator).result.length =
      accumulator.length := by
  cases accumulator with
  | nil => rfl
  | cons lowest rest => simp [addCarryPair, addWord]

@[simp]
theorem length_addMulPairFrom
    (method : ProductMethod)
    (low high carryLow carryHigh : Word)
    (accumulator number : Words) :
    (addMulPairFrom method low high carryLow carryHigh
        accumulator number).result.length =
      accumulator.length := by
  induction number generalizing carryLow carryHigh accumulator with
  | nil => cases accumulator <;> simp [addMulPairFrom]
  | cons word number ih =>
    cases accumulator with
    | nil => rfl
    | cons lowest accumulator => simp [addMulPairFrom, ih]

@[simp]
theorem length_productRows
    (method : ProductMethod)
    (number multiplier accumulator : Words) :
    (productRows method number multiplier accumulator).words.length =
      accumulator.length := by
  fun_induction productRows method number multiplier accumulator with
  | case1 accumulator => rfl
  | case2 last accumulator row =>
    exact length_addMulFrom method last 0 accumulator number
  | case3 low high multiplier accumulator row upper ih =>
    have width : row.result.length = accumulator.length :=
      length_addMulPairFrom method low high 0 0 accumulator number
    simp only [List.length_append, List.length_take, upper, ih,
      List.length_drop, width]
    omega

@[simp]
theorem length_product
    (method : ProductMethod)
    (storage left right : Words) :
    (product method storage left right).length = storage.length := by
  simp [product]

@[simp]
theorem length_mixedRow
    (method : ProductMethod)
    (factor carry : Word)
    (rest accumulator : Words) :
    (mixedRow method factor carry rest accumulator).length =
      accumulator.length := by
  induction rest generalizing carry accumulator with
  | nil => cases accumulator <;> simp [mixedRow]
  | cons word rest ih =>
    cases accumulator with
    | nil => rfl
    | cons lowest accumulator => simp [mixedRow, ih]

@[simp]
theorem length_mixedProducts
    (method : ProductMethod)
    (number accumulator : Words) :
    (mixedProducts method number accumulator).length =
      accumulator.length := by
  induction number generalizing accumulator with
  | nil => simp [mixedProducts]
  | cons word rest ih =>
    cases accumulator with
    | nil => simp [mixedProducts]
    | cons square accumulator =>
      simp only [mixedProducts, List.length_cons, List.length_append,
        List.length_take, ih, List.length_drop, length_mixedRow]
      omega

@[simp]
theorem length_addSquaresFrom
    (method : ProductMethod)
    (carry : Word)
    (number accumulator : Words) :
    (addSquaresFrom method carry number accumulator).result.length =
      accumulator.length := by
  fun_induction addSquaresFrom method carry number accumulator with
  | case1 carry word rest low high accumulator square lowSum highSum upper ih =>
    simp [upper, ih]
  | case2 => rfl

@[simp]
theorem length_square
    (method : ProductMethod)
    (storage number : Words) :
    (square method storage number).length = storage.length := by
  simp [square, squareStages, double]

end ModularLadder.Words
