import Mathlib
import ModularLadder.Proofs.Sum
import ModularLadder.Proofs.WordProduct
import ModularLadder.Words.Product

/-!
# Exact products

Products of words are exact by either method, and the sum of a product and two
more words still fits two words.  From this, a row adds the exact multiple of a
number by one word or by two words at once, whatever the accumulator holds.

The rows of a product and the passes of a square run on storage that is wide
enough for all that is added to it.  Nothing is carried out of any of them,
and the storage holds the exact product at the end.
-/

namespace ModularLadder.Words

open Word (ProductMethod)

/-- A total below twice the weight of the words carries one at most. -/
theorem carry_le_one_of_lt
    {result weight total : Nat}
    {carry : Word}
    (exact : result + weight * carry.toNat = total)
    (bound : total < 2 * weight) :
    carry.toNat ≤ 1 := by
  by_contra above
  have twice : weight * 2 ≤ weight * carry.toNat :=
    Nat.mul_le_mul_left weight (Nat.lt_of_not_le above)
  omega

/-- What a wider accumulator takes up without a word to be left over. -/
theorem carry_addWord_le
    (word : Word)
    (number : Words)
    (nonempty : 0 < number.length) :
    (addWord word number).carry.toNat ≤ 1 := by
  have numberBound := value_lt number
  have wordBound := word.toNat_lt
  have weight : 2 ^ 64 ≤ 2 ^ (64 * number.length) :=
    Nat.pow_le_pow_right (by decide) (by omega)
  exact carry_le_one_of_lt (value_addWord word number) (by omega)

/-- A row adds the exact multiple by one word. -/
theorem value_addMulFrom
    (method : ProductMethod)
    (factor carry : Word)
    (accumulator number : Words)
    (fits : number.length ≤ accumulator.length) :
    value (addMulFrom method factor carry accumulator number).result +
        2 ^ (64 * accumulator.length) *
          (addMulFrom method factor carry accumulator number).carry.toNat =
      value accumulator + value number * factor.toNat + carry.toNat := by
  induction number generalizing carry accumulator with
  | nil =>
    have exact := value_addWord carry accumulator
    cases accumulator <;> simpa [addMulFrom, value] using exact
  | cons word number ih =>
    cases accumulator with
    | nil => simp at fits
    | cons lowest accumulator =>
      have sum := Word.value_mulAdd method lowest word factor carry
      have upper :=
        ih (Word.mulAdd method lowest word factor carry).high accumulator
          (by simpa using fits)
      rw [DoubleWord.value_eq] at sum
      simp only [addMulFrom, value_cons, List.length_cons, weight_succ]
      rw [Nat.add_mul, Nat.mul_assoc]
      omega

/-- A row adds the exact multiple by one word to a wider accumulator. -/
theorem value_addMul
    (method : ProductMethod)
    (accumulator number : Words)
    (factor : Word)
    (fits : number.length ≤ accumulator.length) :
    value (addMul method accumulator number factor).result +
        2 ^ (64 * accumulator.length) *
          (addMul method accumulator number factor).carry.toNat =
      value accumulator + value number * factor.toNat :=
  value_addMulFrom method factor 0 accumulator number fits

@[simp]
theorem length_addMul
    (method : ProductMethod)
    (accumulator number : Words)
    (factor : Word) :
    (addMul method accumulator number factor).result.length =
      accumulator.length :=
  length_addMulFrom method factor 0 accumulator number

/-- Two carries of neighbouring weight are added exactly. -/
theorem value_addCarryPair
    (low high : Word)
    (accumulator : Words)
    (fits : 2 ≤ accumulator.length) :
    value (addCarryPair low high accumulator).result +
        2 ^ (64 * accumulator.length) *
          (addCarryPair low high accumulator).carry.toNat =
      value accumulator + low.toNat + 2 ^ 64 * high.toNat := by
  have first := value_addWord low accumulator
  have firstCarry := carry_addWord_le low accumulator (by omega)
  have firstLength := length_addWord low accumulator
  rw [addCarryPair]
  cases reached : (addWord low accumulator).result with
  | nil =>
    rw [reached] at firstLength
    simp at firstLength
    omega
  | cons lowest rest =>
    rw [reached] at first firstLength
    rw [List.length_cons] at firstLength
    have second := value_addWord high rest
    have secondCarry := carry_addWord_le high rest (by omega)
    have weight :=
      weight_succ rest.length (addWord high rest).carry.toNat
    have carries :
        ((addWord low accumulator).carry +
            (addWord high rest).carry).toNat =
          (addWord low accumulator).carry.toNat +
            (addWord high rest).carry.toNat := by
      rw [UInt64.toNat_add]
      omega
    rw [value_cons] at first
    rw [firstLength] at weight
    simp only [value_cons, carries, Nat.mul_add, weight]
    omega

/--
A row adds the exact multiple by two words and both carries.  The product by
the second word stands one word above that by the first one.
-/
theorem value_addMulPairFrom
    (method : ProductMethod)
    (low high carryLow carryHigh : Word)
    (accumulator number : Words)
    (fits : number.length + 2 ≤ accumulator.length) :
    value
          (addMulPairFrom method low high carryLow carryHigh
            accumulator number).result +
        2 ^ (64 * accumulator.length) *
          (addMulPairFrom method low high carryLow carryHigh
            accumulator number).carry.toNat =
      value accumulator +
        value number * (low.toNat + 2 ^ 64 * high.toNat) +
        carryLow.toNat + 2 ^ 64 * carryHigh.toNat := by
  induction number generalizing carryLow carryHigh accumulator with
  | nil =>
    have exact :=
      value_addCarryPair carryLow carryHigh accumulator (by simpa using fits)
    cases accumulator <;> simpa [addMulPairFrom, value] using exact
  | cons word number ih =>
    cases accumulator with
    | nil => simp at fits
    | cons lowest accumulator =>
      have firstSum := Word.value_mulAdd method lowest word low carryLow
      have secondSum :=
        Word.value_mulAdd method
          (Word.mulAdd method lowest word low carryLow).high
          word high carryHigh
      simp only [addMulPairFrom, value_cons, List.length_cons, weight_succ]
      generalize Word.mulAdd method lowest word low carryLow = first
        at firstSum secondSum ⊢
      generalize Word.mulAdd method first.high word high carryHigh = second
        at secondSum ⊢
      have upper :=
        ih second.low second.high accumulator (by simp at fits; omega)
      rw [DoubleWord.value_eq] at firstSum secondSum
      have lowestSum :
          first.low.toNat +
              2 ^ 64 * (second.low.toNat + 2 ^ 64 * second.high.toNat) =
            lowest.toNat + word.toNat * (low.toNat + 2 ^ 64 * high.toNat) +
              carryLow.toNat + 2 ^ 64 * carryHigh.toNat := by
        rw [Nat.mul_add word.toNat, Nat.mul_left_comm word.toNat]
        omega
      rw [Nat.add_mul word.toNat, Nat.mul_assoc (2 ^ 64)]
      omega

/-- A row adds the exact multiple by two words to a wider accumulator. -/
theorem value_addMulPair
    (method : ProductMethod)
    (accumulator number : Words)
    (low high : Word)
    (fits : number.length + 2 ≤ accumulator.length) :
    value (addMulPair method accumulator number low high).result +
        2 ^ (64 * accumulator.length) *
          (addMulPair method accumulator number low high).carry.toNat =
      value accumulator +
        value number * (low.toNat + 2 ^ 64 * high.toNat) :=
  value_addMulPairFrom method low high 0 0 accumulator number fits

@[simp]
theorem length_addMulPair
    (method : ProductMethod)
    (accumulator number : Words)
    (low high : Word) :
    (addMulPair method accumulator number low high).result.length =
      accumulator.length :=
  length_addMulPairFrom method low high 0 0 accumulator number

end ModularLadder.Words
