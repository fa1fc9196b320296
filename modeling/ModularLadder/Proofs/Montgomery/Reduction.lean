import Mathlib
import ModularLadder.Montgomery.Reduction
import ModularLadder.Proofs.Encoding
import ModularLadder.Proofs.Inverse
import ModularLadder.Proofs.Multiplication

/-!
# Montgomery reduction is exact

A pass adds a multiple of the modulus `N` and leaves the lowest words zero: for
two words at once, because the prediction of the second word is right.  What
stands above the cleared words stays below `N` times the radix to the number
of words that remain to be cleared, plus `N`.  That is the invariant of the
passes.  It leaves room for the next multiple, so that no pass carries
anything out, and at the end it is the bound `2 * N` that one conditional
subtraction needs.

All of this holds whatever the temporaries held before.
-/

namespace ModularLadder.Montgomery

/-- Temporaries of the lengths that numbers of a width need. -/
structure Scratch.Fits (scratch : Scratch) (width : Nat) : Prop where
  accumulator : scratch.accumulator.length = 2 * width + 1
  difference : scratch.difference.length = width

/-- All words but the last one are storage for a product. -/
theorem Scratch.Fits.length_storage
    {scratch : Scratch}
    {width : Nat}
    (fits : scratch.Fits width) :
    (scratch.accumulator.take (2 * width)).length = 2 * width := by
  rw [List.length_take, fits.accumulator]
  omega

theorem Scratch.fits_ofWidth
    (width : Nat) :
    (Scratch.ofWidth width).Fits width where
  accumulator := by
    simp [Scratch.ofWidth]
  difference := by
    simp [Scratch.ofWidth]

namespace Reducer

section Lengths

variable (reducer : Reducer)

@[simp]
theorem length_clearPair
    (accumulator : Words) :
    (reducer.clearPair accumulator).result.length = accumulator.length := by
  simp [clearPair]

@[simp]
theorem length_clearWord
    (accumulator : Words) :
    (reducer.clearWord accumulator).result.length = accumulator.length := by
  simp [clearWord]

/-- No pass changes the length of the accumulator. -/
@[simp]
theorem length_clearLow
    (count : Nat)
    (accumulator : Words) :
    (reducer.clearLow count accumulator).words.length =
      accumulator.length := by
  fun_induction clearLow reducer count accumulator with
  | case1 accumulator => rfl
  | case2 accumulator pass => simp [pass]
  | case3 count accumulator pass upper ih =>
    have length : pass.result.length = accumulator.length := by
      simp [pass]
    rw [List.length_append, ih, List.length_take, List.length_drop, length]
    omega

end Lengths

/-- The modulus is odd and goes with its own negated inverse. -/
structure Sound (reducer : Reducer) : Prop where
  isOdd : Words.value reducer.modulus % 2 = 1
  negInverse_eq :
    reducer.negInverse = Word.negInverse (reducer.modulus.getD 0 0)

/--
A number of the reducer's width below the modulus that is congruent to a total
divided by `R`.
-/
structure Reduces
    (reducer : Reducer)
    (total : Nat)
    (result : Words) :
    Prop where
  width : result.length = reducer.width
  below : Words.value result < Words.value reducer.modulus
  congruent :
    2 ^ (64 * reducer.width) * Words.value result ≡ total
      [MOD Words.value reducer.modulus]

theorem sound_ofModulus
    (modulus : Words)
    (isOdd : Words.value modulus % 2 = 1) :
    (ofModulus modulus).Sound where
  isOdd := isOdd
  negInverse_eq := rfl

section

variable
  {reducer : Reducer}
  (sound : reducer.Sound)

include sound

theorem Sound.modulus_pos :
    0 < Words.value reducer.modulus := by
  have isOdd := sound.isOdd
  omega

theorem Sound.width_pos :
    0 < reducer.width := by
  apply Nat.pos_of_ne_zero
  intro none
  have empty : reducer.modulus = [] := List.eq_nil_of_length_eq_zero none
  have positive := sound.modulus_pos
  rw [empty] at positive
  exact absurd positive (by decide)

/-- The radix is prime to the modulus. -/
theorem Sound.coprime
    (exponent : Nat) :
    Nat.Coprime (2 ^ exponent) (Words.value reducer.modulus) := by
  apply Nat.Coprime.pow_left
  exact (Nat.coprime_two_left).2 (Nat.odd_iff.2 sound.isOdd)

theorem Sound.lowest_odd :
    (reducer.modulus.getD 0 0).toNat % 2 = 1 := by
  have lowest := Words.toNat_getD reducer.modulus 0
  have isOdd := sound.isOdd
  rw [Nat.mul_zero, Nat.pow_zero, Nat.div_one] at lowest
  omega

/-- The multiple chosen for a word cancels it modulo the word size. -/
theorem Sound.dvd_add_multiplier
    (word : Word) :
    2 ^ 64 ∣
      word.toNat +
        (reducer.modulus.getD 0 0).toNat *
          (reducer.multiplier word).toNat := by
  rw [multiplier, sound.negInverse_eq]
  exact
    Word.dvd_add_mul_negInverse (reducer.modulus.getD 0 0) word
      sound.lowest_odd

/-- The predicted word is the one that the first multiple leaves. -/
theorem Sound.toNat_predictedWord
    (lowest second : Word) :
    ∃ carried : Nat,
      lowest.toNat +
            (reducer.modulus.getD 0 0).toNat *
              (reducer.multiplier lowest).toNat =
          2 ^ 64 * carried ∧
        (reducer.predictedWord lowest second).toNat =
          (second.toNat +
            (reducer.modulus.getD 1 0).toNat *
              (reducer.multiplier lowest).toNat + carried) % 2 ^ 64 := by
  have cancels := sound.dvd_add_multiplier lowest
  have product :=
    Word.value_product method (reducer.multiplier lowest)
      (reducer.modulus.getD 0 0)
  have sum :=
    Word.toNat_add
      (Word.product method (reducer.multiplier lowest)
        (reducer.modulus.getD 0 0)).low
      lowest
  have resultBound :=
    (Word.add
      (Word.product method (reducer.multiplier lowest)
        (reducer.modulus.getD 0 0)).low
      lowest).result.toNat_lt
  rw [DoubleWord.value_eq, Nat.mul_comm (reducer.multiplier lowest).toNat]
    at product
  simp only [predictedWord, UInt64.toNat_add, UInt64.toNat_mul]
  generalize Word.product method (reducer.multiplier lowest)
    (reducer.modulus.getD 0 0) = doubled at product sum resultBound ⊢
  generalize Word.add doubled.low lowest = added at sum resultBound ⊢
  refine ⟨doubled.high.toNat + added.carry.toNat, ?_, ?_⟩
  · omega
  · omega

end

/-- The two lowest words of a number, and those above them. -/
theorem value_eq_two_words
    (number : Words) :
    Words.value number =
      (number.getD 0 0).toNat +
        2 ^ 64 *
          ((number.getD 1 0).toNat + 2 ^ 64 * Words.value (number.drop 2)) := by
  match number with
  | [] => rfl
  | [lowest] => simp [Words.value]
  | lowest :: second :: rest => simp [Words.value_cons]

/--
Two places of a sum cancel if the lowest one does with some carry, and the
second one does together with that carry.
-/
theorem dvd_of_places
    {lowest second upper modulusLowest modulusSecond modulusUpper
      firstFactor secondFactor carried : Nat}
    (first : lowest + modulusLowest * firstFactor = 2 ^ 64 * carried)
    (next :
      2 ^ 64 ∣
        (second + modulusSecond * firstFactor + carried) % 2 ^ 64 +
          modulusLowest * secondFactor) :
    2 ^ (64 * 2) ∣
      lowest + 2 ^ 64 * (second + 2 ^ 64 * upper) +
        (modulusLowest + 2 ^ 64 * (modulusSecond + 2 ^ 64 * modulusUpper)) *
          (firstFactor + 2 ^ 64 * secondFactor) := by
  have secondPlace :
      2 ^ 64 ∣
        second + modulusSecond * firstFactor + carried +
          modulusLowest * secondFactor := by
    rw [Nat.dvd_iff_mod_eq_zero] at next ⊢
    rwa [Nat.mod_add_mod] at next
  rcases secondPlace with ⟨place, placeEq⟩
  refine
    ⟨place + upper + modulusSecond * secondFactor +
      modulusUpper * (firstFactor + 2 ^ 64 * secondFactor), ?_⟩
  calc
    lowest + 2 ^ 64 * (second + 2 ^ 64 * upper) +
          (modulusLowest + 2 ^ 64 * (modulusSecond + 2 ^ 64 * modulusUpper)) *
            (firstFactor + 2 ^ 64 * secondFactor) =
        (lowest + modulusLowest * firstFactor) +
          2 ^ 64 *
            (second + modulusSecond * firstFactor +
              modulusLowest * secondFactor) +
          2 ^ 128 *
            (upper + modulusSecond * secondFactor +
              modulusUpper * (firstFactor + 2 ^ 64 * secondFactor)) := by
      ring
    _ =
        2 ^ 64 *
            (second + modulusSecond * firstFactor + carried +
              modulusLowest * secondFactor) +
          2 ^ 128 *
            (upper + modulusSecond * secondFactor +
              modulusUpper * (firstFactor + 2 ^ 64 * secondFactor)) := by
      rw [first]
      ring
    _ = _ := by
      rw [placeEq]
      ring

section

variable
  {reducer : Reducer}
  (sound : reducer.Sound)

include sound

/-- Both multipliers together cancel the two lowest words. -/
theorem Sound.dvd_clearPair
    (accumulator : Words) :
    2 ^ (64 * 2) ∣
      Words.value accumulator +
        Words.value reducer.modulus *
          ((reducer.multiplier (accumulator.getD 0 0)).toNat +
            2 ^ 64 *
              (reducer.multiplier
                (reducer.predictedWord (accumulator.getD 0 0)
                  (accumulator.getD 1 0))).toNat) := by
  rcases
      sound.toNat_predictedWord (accumulator.getD 0 0) (accumulator.getD 1 0) with
    ⟨carried, cancelled, predicted⟩
  have secondCancelled :=
    sound.dvd_add_multiplier
      (reducer.predictedWord (accumulator.getD 0 0) (accumulator.getD 1 0))
  rw [predicted] at secondCancelled
  rw [value_eq_two_words accumulator, value_eq_two_words reducer.modulus]
  exact dvd_of_places cancelled secondCancelled

/-- The multiplier of a single pass cancels the lowest word. -/
theorem Sound.dvd_clearWord
    (accumulator : Words) :
    2 ^ (64 * 1) ∣
      Words.value accumulator +
        Words.value reducer.modulus *
          (reducer.multiplier (accumulator.getD 0 0)).toNat := by
  rcases sound.dvd_add_multiplier (accumulator.getD 0 0) with
    ⟨quotient, cancelled⟩
  rw [value_eq_two_words accumulator, value_eq_two_words reducer.modulus]
  generalize (reducer.multiplier _).toNat = factor at *
  generalize (accumulator.getD 0 0).toNat = lowest at *
  generalize (reducer.modulus.getD 0 0).toNat = modulusLowest at *
  generalize (accumulator.getD 1 0).toNat +
    2 ^ 64 * Words.value (accumulator.drop 2) = upper
  generalize (reducer.modulus.getD 1 0).toNat +
    2 ^ 64 * Words.value (reducer.modulus.drop 2) = modulusUpper
  refine ⟨quotient + upper + modulusUpper * factor, ?_⟩
  calc
    lowest + 2 ^ 64 * upper + (modulusLowest + 2 ^ 64 * modulusUpper) * factor =
        (lowest + modulusLowest * factor) +
          2 ^ 64 * (upper + modulusUpper * factor) := by
      ring
    _ = _ := by
      rw [cancelled]
      ring

end

end Reducer

end ModularLadder.Montgomery
