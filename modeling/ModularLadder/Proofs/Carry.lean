import Mathlib
import ModularLadder.Proofs.Positional
import ModularLadder.Words.Sum

/-!
# Exact sums and differences

The result of a sum and what is carried out of it are together the exact sum
of the operands; the result of a difference is exact once what it has borrowed
is given back.  This holds of single words, whose carries come from a formula
on bits, and by induction over the words of long numbers.  Carries and borrows
are zero or one.
-/

namespace ModularLadder

namespace Word

/-- Shifting a word by all places but one leaves its highest bit. -/
theorem toNat_highestBit
    (word : Word) :
    (word >>> 63).toNat = word.toBitVec.msb.toNat := by
  have bound := word.toNat_lt
  rw [UInt64.toNat_shiftRight, Nat.shiftRight_eq_div_pow, BitVec.msb_eq_decide,
    UInt64.toNat_toBitVec]
  show word.toNat / 2 ^ 63 = _
  by_cases high : 2 ^ (64 - 1) ≤ word.toNat
  · rw [decide_eq_true high, Bool.toNat_true]
    omega
  · rw [decide_eq_false high, Bool.toNat_false]
    omega

/-- A sum and its carry are together the exact sum. -/
theorem toNat_add
    (left right : Word) :
    (add left right).result.toNat + 2 ^ 64 * (add left right).carry.toNat =
      left.toNat + right.toNat := by
  have leftBound := left.toNat_lt
  have rightBound := right.toNat_lt
  simp only [add, toNat_highestBit, UInt64.toBitVec_or, UInt64.toBitVec_and,
    UInt64.toBitVec_not, BitVec.msb_or, BitVec.msb_and, BitVec.msb_not]
  simp only [BitVec.msb_eq_decide, UInt64.toNat_toBitVec, UInt64.toNat_add]
  by_cases leftHigh : 2 ^ (64 - 1) ≤ left.toNat <;>
    by_cases rightHigh : 2 ^ (64 - 1) ≤ right.toNat <;>
    by_cases sumHigh : 2 ^ (64 - 1) ≤ (left.toNat + right.toNat) % 2 ^ 64 <;>
    simp only [leftHigh, rightHigh, sumHigh, decide_true, decide_false] <;>
    simp <;>
    omega

/-- A difference is exact once its borrow has been given back. -/
theorem toNat_sub
    (left right : Word) :
    (sub left right).result.toNat + right.toNat =
      left.toNat + 2 ^ 64 * (sub left right).carry.toNat := by
  have leftBound := left.toNat_lt
  have rightBound := right.toNat_lt
  simp only [sub, toNat_highestBit, UInt64.toBitVec_or, UInt64.toBitVec_and,
    UInt64.toBitVec_not, BitVec.msb_or, BitVec.msb_and, BitVec.msb_not]
  simp only [BitVec.msb_eq_decide, UInt64.toNat_toBitVec, UInt64.toNat_sub]
  by_cases leftHigh : 2 ^ (64 - 1) ≤ left.toNat <;>
    by_cases rightHigh : 2 ^ (64 - 1) ≤ right.toNat <;>
    by_cases differenceHigh :
      2 ^ (64 - 1) ≤ (2 ^ 64 - right.toNat + left.toNat) % 2 ^ 64 <;>
    simp only [leftHigh, rightHigh, differenceHigh, decide_true, decide_false] <;>
    simp <;>
    omega

/-- The exact sum of two words and a carry. -/
theorem toNat_addWithCarry
    (left right carry : Word)
    (carryBound : carry.toNat ≤ 1) :
    (addWithCarry left right carry).result.toNat +
        2 ^ 64 * (addWithCarry left right carry).carry.toNat =
      left.toNat + right.toNat + carry.toNat := by
  have leftBound := left.toNat_lt
  have rightBound := right.toNat_lt
  have first := toNat_add left carry
  have second := toNat_add (add left carry).result right
  have firstBound := (add left carry).result.toNat_lt
  have secondBound := (add (add left carry).result right).result.toNat_lt
  simp only [addWithCarry, UInt64.toNat_add]
  omega

theorem carry_addWithCarry_le
    (left right carry : Word)
    (carryBound : carry.toNat ≤ 1) :
    (addWithCarry left right carry).carry.toNat ≤ 1 := by
  have exact := toNat_addWithCarry left right carry carryBound
  have leftBound := left.toNat_lt
  have rightBound := right.toNat_lt
  omega

/-- The exact difference of two words and a borrow. -/
theorem toNat_subWithBorrow
    (left right borrow : Word)
    (borrowBound : borrow.toNat ≤ 1) :
    (subWithBorrow left right borrow).result.toNat + right.toNat +
        borrow.toNat =
      left.toNat + 2 ^ 64 * (subWithBorrow left right borrow).carry.toNat := by
  have leftBound := left.toNat_lt
  have rightBound := right.toNat_lt
  have first := toNat_sub left borrow
  have second := toNat_sub (sub left borrow).result right
  have firstBound := (sub left borrow).result.toNat_lt
  have secondBound := (sub (sub left borrow).result right).result.toNat_lt
  simp only [subWithBorrow, UInt64.toNat_add]
  omega

theorem borrow_subWithBorrow_le
    (left right borrow : Word)
    (borrowBound : borrow.toNat ≤ 1) :
    (subWithBorrow left right borrow).carry.toNat ≤ 1 := by
  have exact := toNat_subWithBorrow left right borrow borrowBound
  have resultBound := (subWithBorrow left right borrow).result.toNat_lt
  have rightBound := right.toNat_lt
  omega

/-- The bit formula tells zero from every other word. -/
theorem toNat_isNonzero
    (word : Word) :
    (isNonzero word).toNat = if word = 0 then 0 else 1 := by
  have bound := word.toNat_lt
  simp only [isNonzero, toNat_highestBit, UInt64.toBitVec_or, BitVec.msb_or]
  simp only [BitVec.msb_eq_decide, UInt64.toNat_toBitVec, UInt64.toNat_neg]
  by_cases zero : word = 0
  · subst zero
    rfl
  · have positive : word.toNat ≠ 0 := fun equality =>
      zero (UInt64.toNat_inj.1 equality)
    rw [if_neg zero]
    by_cases high : 2 ^ (64 - 1) ≤ word.toNat
    · rw [decide_eq_true high]
      rfl
    · have negationHigh :
          2 ^ (64 - 1) ≤ (UInt64.size - word.toNat) % UInt64.size := by
        rw [show UInt64.size = 2 ^ 64 from rfl]
        omega
      rw [decide_eq_false high, decide_eq_true negationHigh]
      rfl

end Word

namespace Words

/-- No more than one is carried out of a sum. -/
theorem carry_addFrom_le
    (carry : Word)
    (left right : Words)
    (carryBound : carry.toNat ≤ 1) :
    (addFrom carry left right).carry.toNat ≤ 1 := by
  fun_induction addFrom carry left right with
  | case1 carry leftWord left rightWord right lowest upper ih =>
    exact ih (Word.carry_addWithCarry_le leftWord rightWord carry carryBound)
  | case2 => exact carryBound

/-- A sum and what is carried out of it are together the exact sum. -/
theorem value_addFrom
    (carry : Word)
    (left right : Words)
    (sameWidth : right.length = left.length)
    (carryBound : carry.toNat ≤ 1) :
    value (addFrom carry left right).result +
        2 ^ (64 * left.length) * (addFrom carry left right).carry.toNat =
      value left + value right + carry.toNat := by
  induction left generalizing carry right with
  | nil =>
    have empty := List.eq_nil_of_length_eq_zero sameWidth
    simp [empty, addFrom, value]
  | cons leftWord left ih =>
    cases right with
    | nil => simp at sameWidth
    | cons rightWord right =>
      have lowest :=
        Word.toNat_addWithCarry leftWord rightWord carry carryBound
      have upper :=
        ih (Word.addWithCarry leftWord rightWord carry).carry right
          (by simpa using sameWidth)
          (Word.carry_addWithCarry_le leftWord rightWord carry carryBound)
      simp only [addFrom, value_cons, List.length_cons, weight_succ]
      omega

/-- No more than one is borrowed by a difference. -/
theorem borrow_subFrom_le
    (borrow : Word)
    (left right : Words)
    (borrowBound : borrow.toNat ≤ 1) :
    (subFrom borrow left right).carry.toNat ≤ 1 := by
  fun_induction subFrom borrow left right with
  | case1 borrow leftWord left rightWord right lowest upper ih =>
    exact
      ih (Word.borrow_subWithBorrow_le leftWord rightWord borrow borrowBound)
  | case2 => exact borrowBound

/-- A difference is exact once what it has borrowed is given back. -/
theorem value_subFrom
    (borrow : Word)
    (left right : Words)
    (sameWidth : right.length = left.length)
    (borrowBound : borrow.toNat ≤ 1) :
    value (subFrom borrow left right).result + value right + borrow.toNat =
      value left +
        2 ^ (64 * left.length) * (subFrom borrow left right).carry.toNat := by
  induction left generalizing borrow right with
  | nil =>
    have empty := List.eq_nil_of_length_eq_zero sameWidth
    simp [empty, subFrom, value]
  | cons leftWord left ih =>
    cases right with
    | nil => simp at sameWidth
    | cons rightWord right =>
      have lowest :=
        Word.toNat_subWithBorrow leftWord rightWord borrow borrowBound
      have upper :=
        ih (Word.subWithBorrow leftWord rightWord borrow).carry right
          (by simpa using sameWidth)
          (Word.borrow_subWithBorrow_le leftWord rightWord borrow borrowBound)
      simp only [subFrom, value_cons, List.length_cons, weight_succ]
      omega

/-- Adding a word is exact, whatever the word. -/
theorem value_addWord
    (word : Word)
    (number : Words) :
    value (addWord word number).result +
        2 ^ (64 * number.length) * (addWord word number).carry.toNat =
      value number + word.toNat := by
  induction number generalizing word with
  | nil => simp [addWord, value]
  | cons lowest rest ih =>
    have first := Word.toNat_add lowest word
    have upper := ih (Word.add lowest word).carry
    simp only [addWord, value_cons, List.length_cons, weight_succ]
    omega

end Words

end ModularLadder
