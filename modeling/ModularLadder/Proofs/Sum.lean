import Mathlib
import ModularLadder.Proofs.Comparison
import ModularLadder.Words.Sum

/-!
# Sums under a choice, doubles and corrections

The conditional sums of long numbers are exact sums with the second operand
or with zero.  A difference borrows exactly if the subtrahend is greater, and
all that is known of it follows from that.  A double is exact together with
the bit that leaves it.

A sum or a double of numbers below a modulus is below twice the modulus.  One
conditional subtraction then reduces it, and whether to subtract is told by
the carry of the sum and the borrow of the difference alone.
-/

namespace ModularLadder.Words

/-! ## Cleared and masked numbers -/

@[simp]
theorem value_clear
    (storage : Words) :
    value (clear storage) = 0 := by
  induction storage with
  | nil => rfl
  | cons word rest ih =>
    rw [clear] at ih
    rw [clear, List.map_cons, value_cons, ih]
    rfl

/-- Every part of cleared storage is zero. -/
@[simp]
theorem value_take_clear
    (count : Nat)
    (storage : Words) :
    value ((clear storage).take count) = 0 := by
  rw [clear, ← List.map_take]
  exact value_clear (storage.take count)

@[simp]
theorem value_drop_clear
    (count : Nat)
    (storage : Words) :
    value ((clear storage).drop count) = 0 := by
  rw [clear, ← List.map_drop]
  exact value_clear (storage.drop count)

/-- A storage of at least one word takes any word as its number. -/
theorem value_setWord
    (storage : Words)
    (word : Word)
    (nonempty : 0 < storage.length) :
    value (setWord storage word) = word.toNat := by
  cases storage with
  | nil => simp at nonempty
  | cons lowest rest => simp [setWord, value_cons]

/-- A set choice extends the operand by zeros. -/
theorem maskedOperand_true
    (width : Nat)
    (operand : Words)
    (fits : operand.length ≤ width) :
    maskedOperand (Choice.ofBool true) width operand =
      operand ++ zeros (width - operand.length) := by
  apply List.ext_getElem
  · simp [maskedOperand, zeros]
    omega
  · intro index first second
    simp only [maskedOperand, List.getElem_map, List.getElem_range,
      Choice.select_ofBool, if_true]
    by_cases inside : index < operand.length
    · rw [List.getElem_append_left inside, List.getD_eq_getElem _ _ inside]
    · have outside : operand.length ≤ index := Nat.le_of_not_lt inside
      rw [List.getElem_append_right outside, List.getD_eq_default _ _ outside]
      simp [zeros]

/-- A choice that is not set replaces the operand by zeros. -/
theorem maskedOperand_false
    (width : Nat)
    (operand : Words) :
    maskedOperand (Choice.ofBool false) width operand = zeros width := by
  apply List.ext_getElem
  · simp [maskedOperand, zeros]
  · intro index first second
    simp [maskedOperand, zeros, Choice.select_ofBool]

/-! ## Sums and differences -/

theorem carry_add_le
    (left right : Words) :
    (add left right).carry.toNat ≤ 1 :=
  carry_addFrom_le 0 left right (by decide)

theorem value_add
    (left right : Words)
    (sameWidth : right.length = left.length) :
    value (add left right).result +
        2 ^ (64 * left.length) * (add left right).carry.toNat =
      value left + value right :=
  value_addFrom 0 left right sameWidth (by decide)

@[simp]
theorem length_add
    (left right : Words)
    (sameWidth : right.length = left.length) :
    (add left right).result.length = left.length :=
  length_addFrom 0 left right sameWidth

theorem borrow_sub_le
    (left right : Words) :
    (sub left right).carry.toNat ≤ 1 :=
  borrow_subFrom_le 0 left right (by decide)

theorem value_sub
    (left right : Words)
    (sameWidth : right.length = left.length) :
    value (sub left right).result + value right =
      value left + 2 ^ (64 * left.length) * (sub left right).carry.toNat :=
  value_subFrom 0 left right sameWidth (by decide)

@[simp]
theorem length_sub
    (left right : Words)
    (sameWidth : right.length = left.length) :
    (sub left right).result.length = left.length :=
  length_subFrom 0 left right sameWidth

/--
The outcome of subtracting from a number: as many words as before, a borrow
exactly if the subtrahend is greater, and an exact difference once the borrow
has been given back.
-/
structure Deducts
    (number : Words)
    (subtrahend : Nat)
    (difference : Carried Words) :
    Prop where
  length_eq : difference.result.length = number.length
  borrow_eq : difference.carry = if value number < subtrahend then 1 else 0
  exact :
    value difference.result + subtrahend =
      value number + 2 ^ (64 * number.length) * difference.carry.toNat

/-- An exact difference borrows a bit exactly if it has to. -/
theorem deducts_of_exact
    {number : Words}
    {subtrahend : Nat}
    {difference : Carried Words}
    (length_eq : difference.result.length = number.length)
    (borrowBound : difference.carry.toNat ≤ 1)
    (exact :
      value difference.result + subtrahend =
        value number + 2 ^ (64 * number.length) * difference.carry.toNat) :
    Deducts number subtrahend difference := by
  have resultBound := value_lt difference.result
  rw [length_eq] at resultBound
  refine ⟨length_eq, ?_, exact⟩
  rcases Nat.le_one_iff_eq_zero_or_eq_one.1 borrowBound with clear | set
  · have reached : ¬value number < subtrahend := by
      rw [clear] at exact
      omega
    rw [if_neg reached]
    exact UInt64.toNat_inj.1 clear
  · have less : value number < subtrahend := by
      rw [set] at exact
      omega
    rw [if_pos less]
    exact UInt64.toNat_inj.1 set

theorem sub_deducts
    (left right : Words)
    (sameWidth : right.length = left.length) :
    Deducts left (value right) (sub left right) := by
  apply deducts_of_exact
  · simp [sameWidth]
  · exact borrow_sub_le left right
  · exact value_sub left right sameWidth

/-- A difference borrows exactly if the subtrahend is greater. -/
theorem borrow_sub_eq
    (left right : Words)
    (sameWidth : right.length = left.length) :
    Choice.ofBit (sub left right).carry =
      Choice.ofBool (decide (value left < value right)) := by
  rw [(sub_deducts left right sameWidth).borrow_eq, Choice.ofBool]
  simp

/-- A difference is exact unless the subtrahend is greater. -/
theorem value_sub_of_le
    (left right : Words)
    (sameWidth : right.length = left.length)
    (le : value right ≤ value left) :
    value (sub left right).result + value right = value left := by
  have deducts := sub_deducts left right sameWidth
  have exact := deducts.exact
  rw [deducts.borrow_eq, if_neg (Nat.not_lt.2 le)] at exact
  simpa using exact

/-- A difference is short of what is borrowed if the subtrahend is greater. -/
theorem value_sub_of_lt
    (left right : Words)
    (sameWidth : right.length = left.length)
    (less : value left < value right) :
    value (sub left right).result + value right =
      value left + 2 ^ (64 * left.length) := by
  have deducts := sub_deducts left right sameWidth
  have exact := deducts.exact
  rw [deducts.borrow_eq, if_pos less] at exact
  simpa using exact

/-! ## Sums under a choice -/

/-- The in-place sum of numbers of equal width is their sum. -/
theorem addShort_eq_add
    (number addend : Words)
    (sameWidth : addend.length = number.length) :
    addShort number addend = add number addend := by
  rw [addShort, addIf, Choice.yes_eq, maskedOperand_true _ _ sameWidth.le,
    sameWidth, Nat.sub_self]
  simp [zeros, add]

/-- A difference under a choice is one with the subtrahend or with zero. -/
@[simp]
theorem subIf_ofBool
    (number subtrahend : Words)
    (condition : Bool)
    (sameWidth : subtrahend.length = number.length) :
    subIf number subtrahend (Choice.ofBool condition) =
      sub number (if condition then subtrahend else zeros number.length) := by
  cases condition with
  | false =>
    rw [subIf, maskedOperand_false]
    rfl
  | true =>
    rw [subIf, maskedOperand_true _ _ sameWidth.le, sameWidth, Nat.sub_self]
    simp [zeros, sub]

/-- The in-place difference of numbers of equal width is their difference. -/
theorem subShort_eq_sub
    (number subtrahend : Words)
    (sameWidth : subtrahend.length = number.length) :
    subShort number subtrahend = sub number subtrahend := by
  simp [subShort, sameWidth]

/-- A number below twice a modulus is reduced by one difference at most. -/
theorem value_subIf_ge
    (number modulus : Words)
    (sameWidth : modulus.length = number.length)
    (bound : value number < 2 * value modulus) :
    value (subIf number modulus (ge number modulus)).result =
      value number % value modulus := by
  rw [ge_eq _ _ sameWidth.symm, subIf_ofBool _ _ _ sameWidth]
  by_cases reached : value modulus ≤ value number
  · have exact := value_sub_of_le number modulus sameWidth reached
    rw [if_pos (decide_eq_true reached), Nat.mod_eq_sub_mod reached,
      Nat.mod_eq_of_lt (by omega)]
    omega
  · have exact :=
      value_sub_of_le number (zeros number.length) (by simp) (by simp)
    rw [value_zeros, Nat.add_zero] at exact
    rw [decide_eq_false reached, if_neg (by decide),
      Nat.mod_eq_of_lt (Nat.lt_of_not_le reached), exact]

/-! ## Doubles -/

/-- A word moved up by one bit, with another bit in the lowest place. -/
theorem toNat_doubledWord
    (word bit : Word)
    (bitBound : bit.toNat ≤ 1) :
    ((word <<< 1) ||| bit).toNat + 2 ^ 64 * (word >>> 63).toNat =
      2 * word.toNat + bit.toNat := by
  have bound := word.toNat_lt
  have up :
      ((word <<< 1) ||| bit).toNat =
        (bit.toNat + 2 * word.toNat) % 2 ^ 64 := by
    rw [UInt64.or_comm]
    exact Word.toNat_or_shiftLeft bit word 1 (by decide) (by omega)
  have down : (word >>> 63).toNat = word.toNat / 2 ^ 63 := by
    rw [UInt64.toNat_shiftRight]
    exact Nat.shiftRight_eq_div_pow word.toNat 63
  rw [up, down]
  omega

theorem carry_doubleFrom_le
    (bit : Word)
    (number : Words)
    (bitBound : bit.toNat ≤ 1) :
    (doubleFrom bit number).carry.toNat ≤ 1 := by
  induction number generalizing bit with
  | nil => exact bitBound
  | cons lowest rest ih =>
    apply ih
    rw [Word.toNat_highestBit]
    cases lowest.toBitVec.msb <;> simp

/-- A double and the bit that leaves it are together exact. -/
theorem value_doubleFrom
    (bit : Word)
    (number : Words)
    (bitBound : bit.toNat ≤ 1) :
    value (doubleFrom bit number).result +
        2 ^ (64 * number.length) * (doubleFrom bit number).carry.toNat =
      2 * value number + bit.toNat := by
  induction number generalizing bit with
  | nil => simp [doubleFrom, value]
  | cons lowest rest ih =>
    have first := toNat_doubledWord lowest bit bitBound
    have highest : (lowest >>> 63).toNat ≤ 1 := by
      rw [Word.toNat_highestBit]
      cases lowest.toBitVec.msb <;> simp
    have upper := ih (lowest >>> 63) highest
    simp only [doubleFrom, value_cons, List.length_cons, weight_succ]
    omega

theorem carry_double_le
    (number : Words) :
    (double number).carry.toNat ≤ 1 :=
  carry_doubleFrom_le 0 number (by decide)

theorem value_double
    (number : Words) :
    value (double number).result +
        2 ^ (64 * number.length) * (double number).carry.toNat =
      2 * value number :=
  value_doubleFrom 0 number (by decide)

@[simp]
theorem length_double
    (number : Words) :
    (double number).result.length = number.length :=
  length_doubleFrom 0 number

/-! ## Corrections -/

section Correction

variable
  (overflow : Bool)
  (low modulus : Words)
  (sameWidth : modulus.length = low.length)

include sameWidth

/--
A number below twice the modulus is the overflow and the low words.  It is
reduced by the difference of the low words to the modulus, unless nothing has
overflowed and the difference borrows.  What is subtracted comes out of the low
words or out of the overflow.
-/
theorem correct_overflow
    (bound :
      value low + 2 ^ (64 * low.length) * overflow.toNat <
        2 * value modulus) :
    let difference := sub low modulus
    let corrected :=
      if overflow || !decide (value low < value modulus) then
        difference.result
      else
        low
    value corrected < value modulus ∧
      corrected.length = low.length ∧
      value corrected ≡
        value low + 2 ^ (64 * low.length) * overflow.toNat
          [MOD value modulus] := by
  intro difference corrected
  have differenceLength : difference.result.length = low.length := by
    simp [difference, sameWidth]
  have modulusBound := value_lt modulus
  rw [sameWidth] at modulusBound
  by_cases kept : overflow = false ∧ value low < value modulus
  · have correctedEq : corrected = low := by
      simp [corrected, kept.1, kept.2]
    rw [correctedEq, kept.1]
    refine ⟨kept.2, rfl, ?_⟩
    simp [Nat.ModEq]
  · have correctedEq : corrected = difference.result := by
      cases overflow with
      | false =>
        have reached : ¬ value low < value modulus := fun below =>
          kept ⟨rfl, below⟩
        simp [corrected, reached]
      | true => simp [corrected]
    have total :
        value difference.result + value modulus =
          value low + 2 ^ (64 * low.length) * overflow.toNat := by
      by_cases less : value low < value modulus
      · have overflows : overflow = true := by
          cases overflow with
          | false => exact absurd ⟨rfl, less⟩ kept
          | true => rfl
        rw [overflows, Bool.toNat_true, Nat.mul_one]
        exact value_sub_of_lt low modulus sameWidth less
      · have reached : value modulus ≤ value low := Nat.not_lt.1 less
        have exact := value_sub_of_le low modulus sameWidth reached
        cases overflow with
        | false =>
          rw [Bool.toNat_false, Nat.mul_zero, Nat.add_zero]
          exact exact
        | true =>
          rw [Bool.toNat_true, Nat.mul_one] at bound
          omega
    rw [correctedEq]
    refine ⟨by omega, differenceLength, ?_⟩
    rw [← total]
    exact (Nat.add_modEq_right).symm

end Correction

/-- Adding the modulus to a number below zero pays back what was borrowed. -/
theorem value_restored
    (left right modulus : Words)
    (sameWidth : right.length = left.length)
    (modulusWidth : modulus.length = left.length)
    (less : value left < value right)
    (rightBelow : value right < value modulus) :
    value (add (sub left right).result modulus).result + value right =
      value left + value modulus := by
  have differenceLength := length_sub left right sameWidth
  have width : modulus.length = (sub left right).result.length :=
    modulusWidth.trans differenceLength.symm
  have borrowed := value_sub_of_lt left right sameWidth less
  have exact := value_add (sub left right).result modulus width
  have bound := value_lt (add (sub left right).result modulus).result
  rw [length_add _ _ width] at bound
  rw [differenceLength] at exact bound
  rcases
      Nat.le_one_iff_eq_zero_or_eq_one.1
        (carry_add_le (sub left right).result modulus) with
    none | carried
  · rw [none] at exact
    omega
  · rw [carried] at exact
    omega

theorem toNat_decide_eq_one
    (bit : Word)
    (bound : bit.toNat ≤ 1) :
    (decide (bit.toNat = 1)).toNat = bit.toNat := by
  rcases Nat.le_one_iff_eq_zero_or_eq_one.1 bound with clear | set
  · rw [clear]
    rfl
  · rw [set]
    rfl

/--
A sum below twice a modulus, with what it has carried, is reduced by the
difference to the modulus under the choice of its carry and its borrow.
-/
theorem correct_carried
    (sum : Carried Words)
    (modulus : Words)
    (total : Nat)
    (sameWidth : modulus.length = sum.result.length)
    (carryBound : sum.carry.toNat ≤ 1)
    (exact :
      value sum.result + 2 ^ (64 * sum.result.length) * sum.carry.toNat =
        total)
    (bound : total < 2 * value modulus) :
    let difference := sub sum.result modulus
    let corrected :=
      assignIf sum.result difference.result
        (Choice.ofBit sum.carry ||| ~~~Choice.ofBit difference.carry)
    value corrected < value modulus ∧
      corrected.length = sum.result.length ∧
      value corrected ≡ total [MOD value modulus] := by
  intro difference corrected
  have differenceLength := length_sub sum.result modulus sameWidth
  have correctedEq :
      corrected =
        if decide (sum.carry.toNat = 1) ||
            !decide (value sum.result < value modulus) then
          difference.result
        else
          sum.result := by
    simp only [corrected, difference]
    rw [Choice.ofBit_eq _ carryBound, borrow_sub_eq _ _ sameWidth,
      Choice.not_ofBool, Choice.or_ofBool,
      assignIf_ofBool _ _ _ differenceLength]
  have corrects :=
    correct_overflow (decide (sum.carry.toNat = 1)) sum.result modulus
      sameWidth
      (by rw [toNat_decide_eq_one _ carryBound, exact]; exact bound)
  rw [toNat_decide_eq_one _ carryBound, exact] at corrects
  rw [correctedEq]
  exact corrects

end ModularLadder.Words
