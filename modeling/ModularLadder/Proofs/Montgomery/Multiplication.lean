import Mathlib
import ModularLadder.Proofs.Montgomery.Reduction

/-!
# Montgomery multiplication is exact

All passes together leave a number below `2 * N` above the cleared words, and
the conditional subtraction makes it the one number below `N` that is the
accumulator's content divided by `R`.  A product or a square of numbers whose
exact product is below `N * R` is reduced to that number.
-/

namespace ModularLadder.Montgomery

namespace Reducer

/-! ## Passes that clear words -/

/-- What clearing the lowest words of an accumulator is to achieve. -/
structure Clears
    (reducer : Reducer)
    (count : Nat)
    (accumulator : Words)
    (passes : Words.Passes) :
    Prop where
  length : passes.words.length = accumulator.length
  carries : ∀ carry ∈ passes.carries, carry = 0
  cleared : Words.value (passes.words.take count) = 0
  below :
    Words.value (passes.words.drop count) < 2 * Words.value reducer.modulus
  congruent :
    Words.value passes.words ≡ Words.value accumulator
      [MOD Words.value reducer.modulus]

theorem add_mul_modEq
    (value modulus factor : Nat) :
    value + modulus * factor ≡ value [MOD modulus] :=
  Nat.add_mul_mod_self_left value modulus factor

/--
A pass that has cleared the lowest words is followed by the passes over the
words above them, which do not touch the cleared ones again.
-/
theorem Clears.after
    {reducer : Reducer}
    {more count factor : Nat}
    {accumulator : Words}
    {pass : Carried Words}
    {upper : Words.Passes}
    (length : pass.result.length = accumulator.length)
    (fits : more ≤ accumulator.length)
    (noCarry : pass.carry = 0)
    (result :
      Words.value pass.result =
        Words.value accumulator + Words.value reducer.modulus * factor)
    (low : Words.value (pass.result.take more) = 0)
    (later : reducer.Clears count (pass.result.drop more) upper) :
    reducer.Clears (more + count) accumulator
      { carries := pass.carry :: upper.carries
        words := pass.result.take more ++ upper.words } := by
  have takeLength : (pass.result.take more).length = more := by
    rw [List.length_take, length]
    omega
  constructor
  case length =>
    rw [List.length_append, takeLength, later.length, List.length_drop]
    omega
  case carries =>
    intro carry member
    rcases List.mem_cons.1 member with first | others
    · rw [first]
      exact noCarry
    · exact later.carries carry others
  case cleared =>
    rw [List.take_append, takeLength, Nat.add_sub_cancel_left,
      List.take_of_length_le (by rw [takeLength]; omega),
      Words.value_append, later.cleared, low]
    rfl
  case below =>
    rw [List.drop_append, takeLength, Nat.add_sub_cancel_left,
      List.drop_of_length_le (by rw [takeLength]; omega), List.nil_append]
    exact later.below
  case congruent =>
    have parts := Words.value_take_add_drop more pass.result (by omega)
    have shifted :=
      (later.congruent.mul_left (2 ^ (64 * more))).add_left
        (Words.value (pass.result.take more))
    rw [parts, result] at shifted
    rw [Words.value_append, takeLength]
    exact shifted.trans (add_mul_modEq _ _ factor)

/-- What stands above the cleared words is the accumulator divided by them. -/
theorem Clears.congruent_drop
    {reducer : Reducer}
    {count : Nat}
    {accumulator : Words}
    {passes : Words.Passes}
    (clears : reducer.Clears count accumulator passes)
    (fits : count ≤ accumulator.length) :
    2 ^ (64 * count) * Words.value (passes.words.drop count) ≡
      Words.value accumulator [MOD Words.value reducer.modulus] := by
  have parts :=
    Words.value_take_add_drop count passes.words
      (by rw [clears.length]; exact fits)
  rw [clears.cleared, Nat.zero_add] at parts
  rw [parts]
  exact clears.congruent

/-- A multiple of the modulus keeps an accumulator below its bound. -/
theorem add_multiple_lt
    {value modulus factor more count : Nat}
    (factorBound : factor < 2 ^ (64 * more))
    (room : value < modulus * (2 ^ (64 * (more + count)) + 1)) :
    value + modulus * factor <
      2 ^ (64 * more) * (modulus * (2 ^ (64 * count) + 1)) := by
  have multiple : modulus * (factor + 1) ≤ modulus * 2 ^ (64 * more) :=
    Nat.mul_le_mul_left _ factorBound
  have expanded :
      modulus * (2 ^ (64 * (more + count)) + 1) + modulus * 2 ^ (64 * more) =
        2 ^ (64 * more) * (modulus * (2 ^ (64 * count) + 1)) + modulus := by
    rw [Words.pow_weight_add]
    ring
  rw [Nat.mul_add, Nat.mul_one] at multiple
  omega

/-- That bound fits an accumulator of one more word than is needed. -/
theorem multiple_le_weight
    {modulus width more count length : Nat}
    (modulusBound : modulus ≤ 2 ^ (64 * width))
    (fits : width + (more + count) < length) :
    2 ^ (64 * more) * (modulus * (2 ^ (64 * count) + 1)) ≤
      2 ^ (64 * length) := by
  have one : 1 ≤ 2 ^ (64 * count) := Nat.one_le_two_pow
  calc
    2 ^ (64 * more) * (modulus * (2 ^ (64 * count) + 1)) ≤
        2 ^ (64 * more) *
          (2 ^ (64 * width) * (2 ^ 64 * 2 ^ (64 * count))) := by
      apply Nat.mul_le_mul_left
      exact Nat.mul_le_mul modulusBound (by omega)
    _ = 2 ^ (64 * (width + (more + count) + 1)) := by
      rw [Words.pow_weight_add, Words.pow_weight_add, Words.pow_weight_add]
      ring
    _ ≤ 2 ^ (64 * length) := Words.weight_le_weight fits

/--
A pass that adds a multiple of the modulus which cancels the lowest words
carries nothing out, clears these words, and keeps the bound on the others.
-/
theorem pass_exact
    (reducer : Reducer)
    (more count factor : Nat)
    (accumulator : Words)
    (pass : Carried Words)
    (length : pass.result.length = accumulator.length)
    (exact :
      Words.value pass.result +
          2 ^ (64 * accumulator.length) * pass.carry.toNat =
        Words.value accumulator + Words.value reducer.modulus * factor)
    (factorBound : factor < 2 ^ (64 * more))
    (cancels :
      2 ^ (64 * more) ∣
        Words.value accumulator + Words.value reducer.modulus * factor)
    (fits : reducer.width + (more + count) < accumulator.length)
    (room :
      Words.value accumulator <
        Words.value reducer.modulus * (2 ^ (64 * (more + count)) + 1)) :
    pass.carry = 0 ∧
      Words.value pass.result =
        Words.value accumulator + Words.value reducer.modulus * factor ∧
      Words.value (pass.result.take more) = 0 ∧
      Words.value (pass.result.drop more) <
        Words.value reducer.modulus * (2 ^ (64 * count) + 1) := by
  have total := add_multiple_lt factorBound room
  have wide := multiple_le_weight (Words.value_lt reducer.modulus).le fits
  rcases Words.carry_eq_zero_of_lt exact (lt_of_lt_of_le total wide) with
    ⟨noCarry, result⟩
  have parts :=
    Words.value_take_add_drop more pass.result (by rw [length]; omega)
  have lowBound := Words.value_lt (pass.result.take more)
  rw [List.length_take, length,
    Nat.min_eq_left (by omega : more ≤ accumulator.length)] at lowBound
  rcases cancels with ⟨quotient, divided⟩
  have lowZero : Words.value (pass.result.take more) = 0 := by
    apply Nat.eq_zero_of_dvd_of_lt _ lowBound
    rw [← Nat.dvd_add_left (Nat.dvd_mul_right _ _), parts, result, divided]
    exact Nat.dvd_mul_right _ _
  refine ⟨noCarry, result, lowZero, ?_⟩
  apply Nat.lt_of_mul_lt_mul_left (a := 2 ^ (64 * more))
  omega

section

variable
  {reducer : Reducer}
  (sound : reducer.Sound)

include sound

/-- A double pass clears two words. -/
theorem Sound.clearPair_exact
    (count : Nat)
    (accumulator : Words)
    (fits : reducer.width + (2 + count) < accumulator.length)
    (room :
      Words.value accumulator <
        Words.value reducer.modulus * (2 ^ (64 * (2 + count)) + 1)) :
    ∃ factor,
      (reducer.clearPair accumulator).carry = 0 ∧
        Words.value (reducer.clearPair accumulator).result =
          Words.value accumulator + Words.value reducer.modulus * factor ∧
        Words.value ((reducer.clearPair accumulator).result.take 2) = 0 ∧
        Words.value ((reducer.clearPair accumulator).result.drop 2) <
          Words.value reducer.modulus * (2 ^ (64 * count) + 1) := by
  have firstBound := (reducer.multiplier (accumulator.getD 0 0)).toNat_lt
  have secondBound :=
    (reducer.multiplier
      (reducer.predictedWord (accumulator.getD 0 0)
        (accumulator.getD 1 0))).toNat_lt
  refine
    ⟨(reducer.multiplier (accumulator.getD 0 0)).toNat +
        2 ^ 64 *
          (reducer.multiplier
            (reducer.predictedWord (accumulator.getD 0 0)
              (accumulator.getD 1 0))).toNat,
      pass_exact reducer 2 count _ accumulator (reducer.clearPair accumulator)
        ?_ ?_ ?_ ?_ fits room⟩
  · simp
  · refine Words.value_addMulPair _ _ _ _ _ ?_
    rw [width] at fits
    omega
  · omega
  · exact sound.dvd_clearPair accumulator

/-- A single pass clears one word. -/
theorem Sound.clearWord_exact
    (count : Nat)
    (accumulator : Words)
    (fits : reducer.width + (1 + count) < accumulator.length)
    (room :
      Words.value accumulator <
        Words.value reducer.modulus * (2 ^ (64 * (1 + count)) + 1)) :
    ∃ factor,
      (reducer.clearWord accumulator).carry = 0 ∧
        Words.value (reducer.clearWord accumulator).result =
          Words.value accumulator + Words.value reducer.modulus * factor ∧
        Words.value ((reducer.clearWord accumulator).result.take 1) = 0 ∧
        Words.value ((reducer.clearWord accumulator).result.drop 1) <
          Words.value reducer.modulus * (2 ^ (64 * count) + 1) := by
  have factorBound := (reducer.multiplier (accumulator.getD 0 0)).toNat_lt
  refine
    ⟨(reducer.multiplier (accumulator.getD 0 0)).toNat,
      pass_exact reducer 1 count _ accumulator (reducer.clearWord accumulator)
        ?_ ?_ ?_ ?_ fits room⟩
  · simp
  · refine Words.value_addMul _ _ _ _ ?_
    rw [width] at fits
    omega
  · omega
  · exact sound.dvd_clearWord accumulator

/-- All passes together clear the lowest words. -/
theorem Sound.clearLow_exact
    (count : Nat)
    (accumulator : Words)
    (fits : reducer.width + count < accumulator.length)
    (room :
      Words.value accumulator <
        Words.value reducer.modulus * (2 ^ (64 * count) + 1)) :
    reducer.Clears count accumulator (reducer.clearLow count accumulator) := by
  fun_induction clearLow reducer count accumulator with
  | case1 accumulator =>
    refine ⟨rfl, by simp, rfl, ?_, rfl⟩
    rw [Nat.mul_comm]
    exact room
  | case2 accumulator pass =>
    rcases sound.clearWord_exact 0 accumulator fits room with
      ⟨factor, noCarry, result, low, high⟩
    refine ⟨?_, ?_, low, ?_, ?_⟩
    · simp [pass]
    · intro carry member
      rw [List.mem_singleton.1 member]
      exact noCarry
    · rw [Nat.mul_comm]
      exact high
    · rw [result]
      exact add_mul_modEq _ _ factor
  | case3 count accumulator pass upper ih =>
    have countEq : count.succ.succ = 2 + count := by omega
    rw [countEq] at fits room ⊢
    rcases sound.clearPair_exact count accumulator fits room with
      ⟨factor, noCarry, result, low, high⟩
    have passLength : pass.result.length = accumulator.length :=
      reducer.length_clearPair accumulator
    have later := ih (by rw [List.length_drop]; omega) high
    exact later.after passLength (by omega) noCarry result low

end

/-! ## The last subtraction -/

/-- The quotient's words and the last carry make up what is left. -/
theorem value_drop_eq
    (width : Nat)
    (words : Words)
    (length : words.length = 2 * width + 1) :
    Words.value (words.drop width) =
      Words.value ((words.drop width).take width) +
        2 ^ (64 * width) * (words.getD (2 * width) 0).toNat := by
  have parts :=
    Words.value_take_add_drop width (words.drop width)
      (by rw [List.length_drop]; omega)
  have last : (words.drop width).drop width = [words.getD (2 * width) 0] := by
    apply List.ext_getElem
    · simp [length]
      omega
    · intro index inside other
      have first : index = 0 := by simpa using other
      subst first
      rw [List.getD_eq_getElem _ _ (by omega)]
      simp [Nat.two_mul]
  rw [← parts, last]
  simp [Words.value]

/-- Less than twice the modulus overflows by one at most. -/
theorem overflow_eq
    {top : Word}
    {weight modulus rest : Nat}
    (modulusBound : modulus < weight)
    (below : rest + weight * top.toNat < 2 * modulus) :
    top.toNat = (decide (top ≠ 0)).toNat := by
  have atMostOne : top.toNat ≤ 1 :=
    @Words.carry_le_one_of_lt rest weight _ top rfl (by omega)
  by_cases zero : top = 0
  · simp [zero]
  · have nonzero : top.toNat ≠ 0 := fun equality =>
      zero (UInt64.toNat_inj.1 equality)
    simp [zero]
    omega

/--
The final subtraction: less than twice the modulus, in the words of a quotient
and one word above them, is reduced by the modulus if it is not below it.
-/
theorem select_reduces
    {reducer : Reducer}
    {total : Nat}
    {quotient : Words}
    {top : Word}
    (length : quotient.length = reducer.width)
    (below :
      Words.value quotient + 2 ^ (64 * reducer.width) * top.toNat <
        2 * Words.value reducer.modulus)
    (divided :
      2 ^ (64 * reducer.width) *
          (Words.value quotient + 2 ^ (64 * reducer.width) * top.toNat) ≡
        total [MOD Words.value reducer.modulus]) :
    let reduced := Words.sub quotient reducer.modulus
    reducer.Reduces total
      (Words.select quotient reduced.result
        (Choice.ofNonzero top ||| ~~~Choice.ofBit reduced.carry)) := by
  intro reduced
  have sameWidth : reducer.modulus.length = quotient.length := length.symm
  have topEq : top.toNat = (decide (top ≠ 0)).toNat :=
    overflow_eq (Words.value_lt reducer.modulus) below
  rw [topEq, ← length] at below divided
  rcases
      Words.correct_overflow (decide (top ≠ 0)) quotient reducer.modulus
        sameWidth below with
    ⟨resultBelow, resultLength, resultCongruent⟩
  rw [Choice.ofNonzero_eq, Words.borrow_sub_eq _ _ sameWidth,
    Choice.not_ofBool, Choice.or_ofBool,
    Words.select_ofBool _ _ _ (Words.length_sub _ _ sameWidth)]
  refine ⟨resultLength.trans length, resultBelow, ?_⟩
  rw [← length]
  exact (resultCongruent.mul_left _).trans divided

/-! ## Reductions, products and squares -/

section

variable
  {reducer : Reducer}
  (sound : reducer.Sound)
  (scratch : Scratch)
  (fits : scratch.Fits reducer.width)

include sound fits

/-- Reduction of the accumulator's content. -/
theorem Sound.reduce_exact
    (room :
      Words.value scratch.accumulator <
        Words.value reducer.modulus * 2 ^ (64 * reducer.width)) :
    reducer.Reduces (Words.value scratch.accumulator)
        (reducer.reduce.run scratch).1 ∧
      (reducer.reduce.run scratch).2.Fits reducer.width := by
  have modulusPos := sound.modulus_pos
  have length := fits.accumulator
  have clears :=
    sound.clearLow_exact reducer.width scratch.accumulator
      (by omega)
      (by rw [Nat.mul_add]; omega)
  have outcome :
      reducer.reduce.run scratch =
        (let cleared :=
          (reducer.clearLow reducer.width scratch.accumulator).words
        let quotient := (cleared.drop reducer.width).take reducer.width
        let reduced := Words.sub quotient reducer.modulus
        (Words.select quotient reduced.result
          (Choice.ofNonzero (cleared.getD (2 * reducer.width) 0) |||
            ~~~Choice.ofBit reduced.carry),
          { accumulator := cleared, difference := reduced.result })) :=
    rfl
  rw [outcome]
  generalize reducer.clearLow reducer.width scratch.accumulator = passes
    at clears ⊢
  have clearedLength := clears.length.trans length
  have below := clears.below
  have divided := clears.congruent_drop (by omega)
  rw [value_drop_eq reducer.width passes.words clearedLength]
    at below divided
  have quotientLength :
      ((passes.words.drop reducer.width).take reducer.width).length =
        reducer.width := by
    rw [List.length_take, List.length_drop]
    omega
  constructor
  · exact select_reduces quotientLength below divided
  · constructor
    · exact clearedLength
    · exact (Words.length_sub _ _ quotientLength.symm).trans quotientLength

/-- Reduction of a double-width number below a clear top word. -/
theorem Sound.reduce_extended
    (total : Words)
    (length : total.length = 2 * reducer.width)
    (room :
      Words.value total <
        Words.value reducer.modulus * 2 ^ (64 * reducer.width)) :
    reducer.Reduces (Words.value total)
        (reducer.reduce.run { scratch with accumulator := total ++ [0] }).1 ∧
      (reducer.reduce.run
        { scratch with accumulator := total ++ [0] }).2.Fits
          reducer.width := by
  have extended : Words.value (total ++ [0]) = Words.value total := by
    simp [Words.value_append, Words.value]
  rw [← extended] at room ⊢
  exact
    sound.reduce_exact { scratch with accumulator := total ++ [0] }
      ⟨by simp [length], fits.difference⟩ room

/-- Reduction of a product, whatever the temporaries hold. -/
theorem Sound.multiply_exact
    (left right : Words)
    (leftWidth : left.length = reducer.width)
    (rightWidth : right.length = reducer.width)
    (room :
      Words.value left * Words.value right <
        Words.value reducer.modulus * 2 ^ (64 * reducer.width)) :
    reducer.Reduces (Words.value left * Words.value right)
        ((reducer.multiply left right).run scratch).1 ∧
      ((reducer.multiply left right).run scratch).2.Fits reducer.width := by
  have storageLength := fits.length_storage
  have product :=
    Words.value_product method
      (scratch.accumulator.take (2 * reducer.width)) left right (by omega)
  rw [← product] at room ⊢
  exact
    sound.reduce_extended scratch fits _
      (by simpa using storageLength) room

/-- Reduction of a square, whatever the temporaries hold. -/
theorem Sound.square_exact
    (number : Words)
    (numberWidth : number.length = reducer.width)
    (room :
      Words.value number * Words.value number <
        Words.value reducer.modulus * 2 ^ (64 * reducer.width)) :
    reducer.Reduces (Words.value number * Words.value number)
        ((reducer.square number).run scratch).1 ∧
      ((reducer.square number).run scratch).2.Fits reducer.width := by
  have storageLength := fits.length_storage
  have square :=
    Words.value_square method
      (scratch.accumulator.take (2 * reducer.width)) number (by omega)
  rw [← square] at room ⊢
  exact
    sound.reduce_extended scratch fits _
      (by simpa using storageLength) room

end

end Reducer

end ModularLadder.Montgomery
