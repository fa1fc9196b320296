import Mathlib
import ModularLadder.Proofs.Accumulation
import ModularLadder.Proofs.Sum

/-!
# Sums and differences with what leaves them

A sum and a double accumulate: their words and the carry are together exact,
and the carry is a bit.  A difference deducts: it is exact once its borrow has
been given back, and it borrows exactly if the subtrahend is greater.

The operand of the forms in place may be narrower than the number, and a
choice may turn it into zero.  The masked operand stands for the operand or
for zero at the full width, so that each form in place is a sum or difference
of equal widths.  A single word is added as a carry that travels up.  It is
handed back where there is no word to take it up.
-/

namespace ModularLadder.Words

theorem add_accumulates
    (left right : Words)
    (sameWidth : right.length = left.length) :
    Accumulates left (value right) (add left right) := by
  apply accumulates_of_lt
  · simp [sameWidth]
  · rw [← sameWidth]
    exact value_lt right
  · exact value_add left right sameWidth

section InPlace

variable
  (number : Words)
  {operand : Words}
  (fits : operand.length ≤ number.length)
  (condition : Bool)

include fits

/-- A masked operand stands for the operand or for zero. -/
theorem value_maskedOperand :
    value
        (maskedOperand (Choice.ofBool condition) number.length operand) =
      if condition then value operand else 0 := by
  cases condition with
  | false => simp [maskedOperand_false]
  | true => simp [maskedOperand_true _ _ fits, value_append]

theorem addIf_accumulates :
    Accumulates number (if condition then value operand else 0)
      (addIf number operand (Choice.ofBool condition)) := by
  rw [← value_maskedOperand number fits condition]
  exact add_accumulates number _ (by simp)

theorem subIf_deducts :
    Deducts number (if condition then value operand else 0)
      (subIf number operand (Choice.ofBool condition)) := by
  rw [← value_maskedOperand number fits condition]
  exact sub_deducts number _ (by simp)

end InPlace

/-- A single word is below the weight of a number that has words. -/
theorem addWord_accumulates
    (word : Word)
    {number : Words}
    (nonempty : number ≠ []) :
    Accumulates number word.toNat (addWord word number) := by
  have width : 0 + 1 ≤ number.length := List.length_pos_of_ne_nil nonempty
  apply accumulates_of_lt
  · simp
  · exact lt_of_lt_of_le word.toNat_lt (weight_le_weight width)
  · exact value_addWord word number

theorem double_accumulates
    (number : Words) :
    Accumulates number (value number) (double number) := by
  apply accumulates_of_lt
  · simp
  · exact value_lt number
  · rw [value_double, two_mul]

/--
Sums and differences are exact at every width, together with what they carry
or borrow.  In place the second operand may be narrower and counts as zero if
the choice is not set.
-/
theorem sums_and_differences_exact :
    (∀ left right : Words,
        right.length = left.length →
          Accumulates left (value right) (add left right) ∧
            Deducts left (value right) (sub left right)) ∧
      (∀ number operand : Words,
        operand.length ≤ number.length →
          Accumulates number (value operand) (addShort number operand) ∧
            Deducts number (value operand) (subShort number operand) ∧
            ∀ condition : Bool,
              Accumulates number (if condition then value operand else 0)
                  (addIf number operand (Choice.ofBool condition)) ∧
                Deducts number (if condition then value operand else 0)
                  (subIf number operand (Choice.ofBool condition))) ∧
      (∀ word : Word,
        addWord word [] = { carry := word, result := [] } ∧
          ∀ number : Words,
            number ≠ [] →
              Accumulates number word.toNat (addWord word number)) ∧
      ∀ number : Words, Accumulates number (value number) (double number) := by
  refine ⟨?_, ?_, ?_, double_accumulates⟩
  · intro left right sameWidth
    exact
      ⟨add_accumulates left right sameWidth, sub_deducts left right sameWidth⟩
  · intro number operand fits
    refine
      ⟨addIf_accumulates number fits true, subIf_deducts number fits true, ?_⟩
    intro condition
    exact
      ⟨addIf_accumulates number fits condition,
        subIf_deducts number fits condition⟩
  · intro word
    exact ⟨rfl, fun number nonempty => addWord_accumulates word nonempty⟩

/--
A carry and a borrow run through every word above a narrower operand and leave
the highest one; without the choice nothing is added.
-/
theorem sums_and_differences_exact_greatest :
    let ones : Word := 0xFFFFFFFFFFFFFFFF
    let full : Words := [ones, ones, ones]
    Accumulates full (value [1]) (addShort full [1]) ∧
      (addShort full [1]).carry = 1 ∧
      (addShort full [1]).result = [0, 0, 0] ∧
      Deducts [0, 0, 0] (value [1]) (subShort [0, 0, 0] [1]) ∧
      (subShort [0, 0, 0] [1]).carry = 1 ∧
      (subShort [0, 0, 0] [1]).result = full ∧
      Accumulates full 0 (addIf full [1] (Choice.ofBool false)) ∧
      Accumulates full (value full) (add full full) ∧
      Deducts full (value full) (sub full full) ∧
      Accumulates full ones.toNat (addWord ones full) := by
  intro ones full
  rcases sums_and_differences_exact with ⟨equal, inPlace, words, -⟩
  have plain := equal full full rfl
  have upward := inPlace full [1] (by decide)
  have downward := inPlace [0, 0, 0] [1] (by decide)
  have single := (words ones).2 full (by decide)
  refine
    ⟨upward.1, ?_, ?_, downward.2.1, ?_, ?_, (upward.2.2 false).1, plain.1,
      plain.2, single⟩ <;>
    decide +kernel

end ModularLadder.Words
