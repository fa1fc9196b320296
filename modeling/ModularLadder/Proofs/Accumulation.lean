import Mathlib
import ModularLadder.Proofs.Comparison
import ModularLadder.Proofs.Multiplication

/-!
# What arithmetic leaves in storage

A row adds to an accumulator that may hold anything.  The words above the row
take part as well, since a carry may run through all of them.  A multiple by
as many words as the accumulator is wider is below the accumulator's weight, so
that at most one is carried out of the highest word.  The words and that carry
are together the exact sum.

A product and a square show nothing of what their storage has held.  They
leave the only words of twice the width that stand for the product.  It does
not matter then by which method single words have been multiplied, nor whether
equal factors have been multiplied or squared.
-/

namespace ModularLadder.Words

open Word (ProductMethod)

/--
The outcome of adding a number to an accumulator: as many words as before and
a carry of zero or one, which are together the exact sum.
-/
structure Accumulates
    (accumulator : Words)
    (addend : Nat)
    (sum : Carried Words) :
    Prop where
  length_eq : sum.result.length = accumulator.length
  carry_bit : sum.carry = 0 ∨ sum.carry = 1
  exact :
    value sum.result + 2 ^ (64 * accumulator.length) * sum.carry.toNat =
      value accumulator + addend

/-- An exact sum carries a bit if the addend is below the weight. -/
theorem accumulates_of_lt
    {accumulator : Words}
    {addend : Nat}
    {sum : Carried Words}
    (length_eq : sum.result.length = accumulator.length)
    (bound : addend < 2 ^ (64 * accumulator.length))
    (exact :
      value sum.result + 2 ^ (64 * accumulator.length) * sum.carry.toNat =
        value accumulator + addend) :
    Accumulates accumulator addend sum := by
  have held := value_lt accumulator
  have carryBound : sum.carry.toNat ≤ 1 := by
    apply carry_le_one_of_lt exact
    omega
  refine ⟨length_eq, ?_, exact⟩
  rcases Nat.le_one_iff_eq_zero_or_eq_one.1 carryBound with clear | set
  · exact .inl (UInt64.toNat_inj.1 clear)
  · exact .inr (UInt64.toNat_inj.1 set)

/-- A multiple by as many words as there is room for is below the weight. -/
theorem multiple_lt_weight
    {number accumulator : Words}
    {factor count : Nat}
    (factorBound : factor < 2 ^ (64 * count))
    (fits : number.length + count ≤ accumulator.length) :
    value number * factor < 2 ^ (64 * accumulator.length) :=
  calc
    value number * factor <
        2 ^ (64 * number.length) * 2 ^ (64 * count) :=
      Nat.mul_lt_mul'' (value_lt number) factorBound
    _ = 2 ^ (64 * (number.length + count)) :=
      (pow_weight_add number.length count).symm
    _ ≤ 2 ^ (64 * accumulator.length) := weight_le_weight fits

/--
A multiple by two words is added exactly to an accumulator that is wider by
two words, and a multiple by one word to any wider one.
-/
theorem multiples_accumulate
    (method : ProductMethod)
    (accumulator number : Words) :
    (number.length + 2 ≤ accumulator.length →
        ∀ low high : Word,
          Accumulates accumulator
            (value number * (low.toNat + 2 ^ 64 * high.toNat))
            (addMulPair method accumulator number low high)) ∧
      (number.length < accumulator.length →
        ∀ factor : Word,
          Accumulates accumulator (value number * factor.toNat)
            (addMul method accumulator number factor)) := by
  constructor
  · intro fits low high
    have lowBound := low.toNat_lt
    have highBound := high.toNat_lt
    have factorBound : low.toNat + 2 ^ 64 * high.toNat < 2 ^ (64 * 2) := by
      omega
    apply accumulates_of_lt
    · simp
    · exact multiple_lt_weight factorBound fits
    · exact value_addMulPair method accumulator number low high fits
  · intro wider factor
    have factorBound : factor.toNat < 2 ^ (64 * 1) := factor.toNat_lt
    apply accumulates_of_lt
    · simp
    · exact multiple_lt_weight factorBound wider
    · exact value_addMul method accumulator number factor wider.le

/--
With the greatest words a carry runs through the words above the row and
leaves the highest one; below a clear word nothing is carried out.
-/
theorem multiples_accumulate_greatest :
    let ones : Word := 0xFFFFFFFFFFFFFFFF
    let full : Words := [ones, ones, ones, ones, ones]
    let row := addMulPair .lanes full [ones, ones] ones ones
    let single := addMul .wide [ones, ones, 0] [ones, ones] ones
    Accumulates full
        (value [ones, ones] * (ones.toNat + 2 ^ 64 * ones.toNat)) row ∧
      row.carry = 1 ∧
      row.result = [0, 0, ones - 1, ones, 0] ∧
      Accumulates [ones, ones, 0] (value [ones, ones] * ones.toNat) single ∧
      single.carry = 0 ∧
      single.result = [0, ones, ones] := by
  intro ones full row single
  have pairs := (multiples_accumulate .lanes full [ones, ones]).1 (by decide)
  have singles :=
    (multiples_accumulate .wide [ones, ones, 0] [ones, ones]).2 (by decide)
  refine ⟨pairs ones ones, ?_, ?_, singles ones, ?_, ?_⟩ <;> decide +kernel

/-- Words of a width that stand for a number. -/
structure StandsFor (words : Words) (width number : Nat) : Prop where
  length_eq : words.length = width
  value_eq : value words = number

/-- A number has no other words of the same width. -/
theorem StandsFor.unique
    {words other : Words}
    {width number : Nat}
    (first : words.StandsFor width number)
    (second : other.StandsFor width number) :
    words = other := by
  apply eq_of_value_eq
  · exact first.length_eq.trans second.length_eq.symm
  · exact first.value_eq.trans second.value_eq.symm

section

variable
  {width : Nat}
  {storage left right : Words}
  (leftWidth : left.length = width)
  (rightWidth : right.length = width)
  (storageWidth : storage.length = 2 * width)

include leftWidth storageWidth

include rightWidth in
theorem product_standsFor
    (method : ProductMethod) :
    (product method storage left right).StandsFor (2 * width)
      (value left * value right) where
  length_eq := by
    simpa using storageWidth
  value_eq := value_product method storage left right (by omega)

theorem square_standsFor
    (method : ProductMethod) :
    (square method storage left).StandsFor (2 * width)
      (value left * value left) where
  length_eq := by
    simpa using storageWidth
  value_eq := value_square method storage left (by omega)

include rightWidth in
/--
Products and squares are exact.  A square has the words of the product of the
number by itself, and another method or other storage gives the same words.
-/
theorem products_and_squares_exact
    (method : ProductMethod) :
    (product method storage left right).StandsFor (2 * width)
        (value left * value right) ∧
      (square method storage left).StandsFor (2 * width) (value left ^ 2) ∧
      square method storage left = product method storage left left ∧
      ∀ (otherMethod : ProductMethod) (otherStorage : Words),
        otherStorage.length = 2 * width →
          product otherMethod otherStorage left right =
              product method storage left right ∧
            square otherMethod otherStorage left =
              square method storage left := by
  have exactProduct :=
    product_standsFor leftWidth rightWidth storageWidth method
  have exactSquare := square_standsFor leftWidth storageWidth method
  refine ⟨exactProduct, ?_, ?_, ?_⟩
  · rw [pow_two]
    exact exactSquare
  · exact
      exactSquare.unique
        (product_standsFor leftWidth leftWidth storageWidth method)
  · intro otherMethod otherStorage otherWidth
    constructor
    · exact
        (product_standsFor leftWidth rightWidth otherWidth otherMethod).unique
          exactProduct
    · exact
        (square_standsFor leftWidth otherWidth otherMethod).unique exactSquare

end

/-- An odd width, the greatest words, and storage that is not clear. -/
theorem products_and_squares_exact_greatest :
    let ones : Word := 0xFFFFFFFFFFFFFFFF
    let number : Words := [ones, ones, ones]
    let storage : Words := [7, 7, 7, 7, 7, 7]
    square .lanes storage number = product .lanes storage number number ∧
      square .wide (zeros 6) number = square .lanes storage number ∧
      square .lanes storage number = [1, 0, 0, ones - 1, ones, ones] := by
  intro ones number storage
  rcases
      @products_and_squares_exact 3 storage number number rfl rfl rfl .lanes with
    ⟨-, -, sameWords, others⟩
  have other := (others .wide (zeros 6) rfl).2
  exact ⟨sameWords, other, by decide +kernel⟩

end ModularLadder.Words
