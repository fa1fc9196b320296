import Mathlib
import ModularLadder.Montgomery.Context
import ModularLadder.Proofs.Montgomery.Multiplication

/-!
# Contexts hold what they promise

A context that has been made holds an odd modulus `N` above one with its
negated inverse, `R ^ 2` and `R` modulo `N`, and `N - 2`.  The power of the
radix is reached by doublings, each of which keeps a number below the modulus.

A byte string makes a context exactly if it is not empty and its number is odd
and not one.
-/

namespace ModularLadder.Montgomery

namespace Reducer

/-- A number is below the modulus in exactly one way for each total. -/
theorem Reduces.value_eq
    {reducer : Reducer}
    (sound : reducer.Sound)
    {total value : Nat}
    {result : Words}
    (reduces : reducer.Reduces total result)
    (below : value < Words.value reducer.modulus)
    (congruent :
      2 ^ (64 * reducer.width) * value ≡ total
        [MOD Words.value reducer.modulus]) :
    Words.value result = value := by
  have cancelled :
      Words.value result ≡ value [MOD Words.value reducer.modulus] := by
    apply Nat.ModEq.cancel_left_of_coprime _
      (reduces.congruent.trans congruent.symm)
    exact (sound.coprime _).symm
  rw [Nat.ModEq, Nat.mod_eq_of_lt reduces.below, Nat.mod_eq_of_lt below]
    at cancelled
  exact cancelled

/-- The negated inverse of the modulus itself, not only of its lowest word. -/
theorem Sound.negInverse_mul_modulus
    {reducer : Reducer}
    (sound : reducer.Sound) :
    (reducer.negInverse.toNat : Int) * Words.value reducer.modulus ≡ -1
      [ZMOD 2 ^ 64] := by
  have lowest := Words.toNat_getD reducer.modulus 0
  rw [Nat.mul_zero, Nat.pow_zero, Nat.div_one] at lowest
  have cancels := sound.dvd_add_multiplier 1
  rw [multiplier, one_mul, UInt64.toNat_one, lowest] at cancels
  have whole :
      2 ^ 64 ∣
        1 + Words.value reducer.modulus * reducer.negInverse.toNat := by
    rw [Nat.dvd_iff_mod_eq_zero] at cancels ⊢
    rw [Nat.add_mod, Nat.mod_mul_mod, ← Nat.add_mod] at cancels
    exact cancels
  rw [Int.modEq_iff_dvd, ← dvd_neg]
  have integers := Int.natCast_dvd_natCast.2 whole
  push_cast at integers
  rw [neg_sub, sub_neg_eq_add, add_comm, mul_comm]
  exact integers

end Reducer

namespace Context

open Bytes (bigEndianValue)

/-! ## Sound contexts -/

/-- The constants of a context are those of its modulus. -/
structure Sound (context : Context) : Prop where
  reducer : context.toReducer.Sound
  one_lt : 1 < Words.value context.modulus
  radixSquared_length : context.radixSquared.length = context.width
  radixSquared_value :
    Words.value context.radixSquared =
      2 ^ (2 * 64 * context.width) % Words.value context.modulus
  one_length : context.one.length = context.width
  one_value :
    Words.value context.one =
      2 ^ (64 * context.width) % Words.value context.modulus
  modulusMinusTwo_length : context.modulusMinusTwo.length = context.width
  modulusMinusTwo_value :
    Words.value context.modulusMinusTwo + 2 = Words.value context.modulus

@[simp]
theorem length_zero
    (context : Context) :
    context.zero.length = context.width := by
  simp [zero]

@[simp]
theorem length_plainOne
    (context : Context) :
    context.plainOne.length = context.width := by
  simp [plainOne]

@[simp]
theorem value_zero
    (context : Context) :
    Words.value context.zero = 0 := by
  simp [zero]

/-! ## Powers of two modulo the modulus -/

/-- Doubling modulo the modulus keeps a number below it. -/
theorem doubleModulo_exact
    (modulus number : Words)
    (sameWidth : modulus.length = number.length)
    (below : Words.value number < Words.value modulus) :
    Words.value (doubleModulo modulus number) =
        2 * Words.value number % Words.value modulus ∧
      (doubleModulo modulus number).length = number.length := by
  have exact := Words.value_double number
  have length := Words.length_double number
  rw [← length] at exact
  rcases
      Words.correct_carried (Words.double number) modulus
        (2 * Words.value number) (by rw [length]; exact sameWidth)
        (Words.carry_double_le number) exact (by omega) with
    ⟨resultBelow, resultLength, congruent⟩
  rw [Nat.ModEq, Nat.mod_eq_of_lt resultBelow] at congruent
  exact ⟨congruent, resultLength.trans length⟩

/-- Doubling one gives the powers of two modulo the modulus. -/
theorem powerOfTwoModulo_exact
    (modulus : Words)
    (one_lt : 1 < Words.value modulus)
    (exponent : Nat) :
    Words.value (powerOfTwoModulo modulus exponent) =
        2 ^ exponent % Words.value modulus ∧
      (powerOfTwoModulo modulus exponent).length = modulus.length := by
  induction exponent with
  | zero =>
    have nonempty : 0 < (Words.zeros modulus.length).length := by
      rw [Words.length_zeros]
      apply Nat.pos_of_ne_zero
      intro none
      rw [List.eq_nil_of_length_eq_zero none] at one_lt
      exact absurd one_lt (by decide)
    constructor
    · rw [powerOfTwoModulo, Words.value_setWord _ _ nonempty, Nat.pow_zero,
        Nat.mod_eq_of_lt one_lt]
      rfl
    · simp [powerOfTwoModulo]
  | succ exponent ih =>
    rcases ih with ⟨value, length⟩
    have below :
        Words.value (powerOfTwoModulo modulus exponent) <
          Words.value modulus := by
      rw [value]
      exact Nat.mod_lt _ (by omega)
    rcases
        doubleModulo_exact modulus (powerOfTwoModulo modulus exponent)
          length.symm below with
      ⟨doubled, doubledLength⟩
    refine ⟨?_, doubledLength.trans length⟩
    rw [powerOfTwoModulo, doubled, value, Nat.mul_mod_mod, Nat.pow_succ']

/-! ## Contexts made from words -/

/-- The context of a modulus, before it is known to be admissible. -/
def ofModulus (modulus : Words) (modulusLength : Nat) : Context :=
  let reducer := Reducer.ofModulus modulus
  let radixSquared :=
    powerOfTwoModulo modulus (2 * 64 * modulus.length)
  { toReducer := reducer
    modulusLength := modulusLength
    radixSquared := radixSquared
    one :=
      (reducer.multiply (Words.setWord (Words.zeros modulus.length) 1)
        radixSquared).evaluate modulus.length
    modulusMinusTwo :=
      (Words.sub modulus
        (Words.setWord (Words.zeros modulus.length) 2)).result }

section

variable
  (modulus : Words)
  (isOdd : Words.value modulus % 2 = 1)
  (one_lt : 1 < Words.value modulus)

include isOdd

theorem value_smallNumber
    (word : Word) :
    Words.value (Words.setWord (Words.zeros modulus.length) word) =
      word.toNat := by
  apply Words.value_setWord
  rw [Words.length_zeros]
  exact (Reducer.sound_ofModulus modulus isOdd).width_pos

include one_lt

/-- Reduction of `R ^ 2` gives `R` modulo the modulus. -/
theorem one_exact
    (modulusLength : Nat) :
    Words.value (ofModulus modulus modulusLength).one =
        2 ^ (64 * modulus.length) % Words.value modulus ∧
      (ofModulus modulus modulusLength).one.length = modulus.length := by
  have sound := Reducer.sound_ofModulus modulus isOdd
  have positive : 0 < Words.value modulus := by omega
  have plainOne := value_smallNumber modulus isOdd 1
  have plainLength :
      (Words.setWord (Words.zeros modulus.length) 1).length =
        modulus.length := by
    simp
  rcases powerOfTwoModulo_exact modulus one_lt (2 * 64 * modulus.length) with
    ⟨radixValue, radixLength⟩
  rw [UInt64.toNat_one] at plainOne
  have room :
      Words.value (Words.setWord (Words.zeros modulus.length) 1) *
          Words.value
            (powerOfTwoModulo modulus (2 * 64 * modulus.length)) <
        Words.value modulus * 2 ^ (64 * modulus.length) := by
    rw [plainOne, Nat.one_mul, radixValue]
    exact
      lt_of_lt_of_le (Nat.mod_lt _ positive)
        (Nat.le_mul_of_pos_right _ (Nat.two_pow_pos _))
  have product :=
    (sound.multiply_exact
      (Scratch.ofWidth modulus.length) (Scratch.fits_ofWidth modulus.length)
      (Words.setWord (Words.zeros modulus.length) 1)
      (powerOfTwoModulo modulus (2 * 64 * modulus.length))
      plainLength radixLength room).1
  refine ⟨?_, product.width⟩
  apply product.value_eq sound (Nat.mod_lt _ positive)
  rw [plainOne, Nat.one_mul, radixValue]
  have square :
      2 ^ (64 * modulus.length) * 2 ^ (64 * modulus.length) =
        2 ^ (2 * 64 * modulus.length) := by
    rw [← Nat.pow_add]
    congr 1
    omega
  show
    2 ^ (64 * modulus.length) *
        (2 ^ (64 * modulus.length) % Words.value modulus) ≡
      2 ^ (2 * 64 * modulus.length) % Words.value modulus
        [MOD Words.value modulus]
  rw [← square]
  exact
    ((Nat.mod_modEq _ _).mul_left _).trans (Nat.mod_modEq _ _).symm

/-- The difference of an odd modulus above one and two does not borrow. -/
theorem modulusMinusTwo_exact
    (modulusLength : Nat) :
    Words.value (ofModulus modulus modulusLength).modulusMinusTwo + 2 =
        Words.value modulus ∧
      (ofModulus modulus modulusLength).modulusMinusTwo.length =
        modulus.length := by
  have sameWidth :
      (Words.setWord (Words.zeros modulus.length) 2).length =
        modulus.length := by
    simp
  have two :
      Words.value (Words.setWord (Words.zeros modulus.length) 2) = 2 :=
    value_smallNumber modulus isOdd 2
  have exact := Words.value_sub_of_le modulus _ sameWidth (by omega)
  rw [two] at exact
  exact ⟨exact, by simp [ofModulus]⟩

/-- An odd modulus above one makes a sound context. -/
theorem sound_ofModulus
    (modulusLength : Nat) :
    (ofModulus modulus modulusLength).Sound := by
  rcases powerOfTwoModulo_exact modulus one_lt (2 * 64 * modulus.length) with
    ⟨radixValue, radixLength⟩
  rcases one_exact modulus isOdd one_lt modulusLength with ⟨oneValue, oneLength⟩
  rcases modulusMinusTwo_exact modulus isOdd one_lt modulusLength with
    ⟨minusTwoValue, minusTwoLength⟩
  exact
    { reducer := Reducer.sound_ofModulus modulus isOdd
      one_lt := one_lt
      radixSquared_length := radixLength
      radixSquared_value := radixValue
      one_length := oneLength
      one_value := oneValue
      modulusMinusTwo_length := minusTwoLength
      modulusMinusTwo_value := minusTwoValue }

end

/-! ## Contexts made from bytes -/

/-- The words that hold the modulus of a byte string. -/
def modulusOfBytes (modulusBytes : Bytes) : Words :=
  Words.ofBigEndian
    (Words.zeros (Words.widthOfBytes modulusBytes.length)) modulusBytes

@[simp]
theorem length_modulusOfBytes
    (modulusBytes : Bytes) :
    (modulusOfBytes modulusBytes).length =
      Words.widthOfBytes modulusBytes.length := by
  simp [modulusOfBytes]

theorem value_modulusOfBytes
    (modulusBytes : Bytes) :
    Words.value (modulusOfBytes modulusBytes) =
      Bytes.bigEndianValue modulusBytes := by
  apply Words.value_ofBigEndian_of_length_le
  rw [Words.length_zeros, Words.widthOfBytes]
  omega

/-- The lowest bit of the lowest word tells an even number. -/
theorem lowestBit_eq_zero_iff
    (number : Words) :
    ((number.getD 0 0 &&& 1 == 0) = true) ↔ Words.value number % 2 = 0 := by
  have lowest := Words.toNat_getD number 0
  have bit : (number.getD 0 0 &&& 1).toNat = (number.getD 0 0).toNat % 2 := by
    rw [UInt64.toNat_and]
    exact Nat.and_one_is_mod _
  rw [Nat.mul_zero, Nat.pow_zero, Nat.div_one] at lowest
  rw [beq_iff_eq, ← UInt64.toNat_inj, bit, lowest, UInt64.toNat_zero]
  omega

/-- Which byte strings make a context, and which context they make. -/
theorem ofBytes_eq
    (modulusBytes : Bytes) :
    ofBytes modulusBytes =
      if modulusBytes = [] then
        .error .notEnoughData
      else if Bytes.bigEndianValue modulusBytes % 2 = 0 ∨
          Bytes.bigEndianValue modulusBytes = 1 then
        .error .value
      else
        .ok (ofModulus (modulusOfBytes modulusBytes) modulusBytes.length) := by
  by_cases empty : modulusBytes = []
  · subst empty
    rfl
  · have notEmpty : modulusBytes.isEmpty = false := by
      simpa using empty
    have nonempty : modulusOfBytes modulusBytes ≠ [] := by
      intro none
      have length := length_modulusOfBytes modulusBytes
      have positive := List.length_pos_iff.2 empty
      rw [none, List.length_nil, Words.widthOfBytes] at length
      omega
    have even := lowestBit_eq_zero_iff (modulusOfBytes modulusBytes)
    have one := Words.isOne_eq (modulusOfBytes modulusBytes) nonempty
    rw [value_modulusOfBytes] at even one
    have unfolded :
        ofBytes modulusBytes =
          if (modulusOfBytes modulusBytes).getD 0 0 &&& 1 == 0 then
            .error .value
          else if (Words.isOne (modulusOfBytes modulusBytes)).isSet then
            .error .value
          else
            .ok
              (ofModulus (modulusOfBytes modulusBytes)
                modulusBytes.length) := by
      have width := length_modulusOfBytes modulusBytes
      rw [ofBytes, notEmpty, ofModulus, width]
      rfl
    rw [unfolded, if_neg empty, one, Choice.isSet_ofBool]
    by_cases isEven : Bytes.bigEndianValue modulusBytes % 2 = 0
    · rw [if_pos (even.2 isEven), if_pos (Or.inl isEven)]
    · rw [if_neg (fun lowest => isEven (even.1 lowest))]
      by_cases isOne : Bytes.bigEndianValue modulusBytes = 1
      · rw [if_pos (by simpa using isOne), if_pos (Or.inr isOne)]
      · rw [if_neg (by simpa using isOne),
          if_neg (by rintro (lowest | same) <;> contradiction)]

/-- A context that has been made is sound for the number of its string. -/
theorem sound_of_ofBytes
    {modulusBytes : Bytes}
    {context : Context}
    (made : ofBytes modulusBytes = .ok context) :
    context.Sound ∧
      Words.value context.modulus = Bytes.bigEndianValue modulusBytes ∧
      context.width = Words.widthOfBytes modulusBytes.length ∧
      context.modulusLength = modulusBytes.length := by
  rw [ofBytes_eq] at made
  split_ifs at made with empty rejected
  rcases not_or.1 rejected with ⟨isOdd, notOne⟩
  have value := value_modulusOfBytes modulusBytes
  rw [Except.ok.injEq] at made
  subst made
  refine ⟨?_, value, length_modulusOfBytes modulusBytes, rfl⟩
  apply sound_ofModulus
  · rw [value]
    omega
  · rw [value]
    omega

/-! ## The constants of a context -/

/-- Words of the context's width that stand for a number below the modulus. -/
structure Holds (context : Context) (constant : Words) (number : Nat) :
    Prop where
  width : constant.length = context.width
  value : Words.value constant = number
  below : number < Words.value context.modulus

/-- The constants of a context, by the number of the string that gave it. -/
structure HasConstants (context : Context) (modulusBytes : Bytes) : Prop where
  width_eq : context.width = modulusBytes.length ⌈/⌉ 8
  modulusLength_eq : context.modulusLength = modulusBytes.length
  modulus_value : Words.value context.modulus = bigEndianValue modulusBytes
  negInverse_mul :
    (context.negInverse.toNat : Int) * bigEndianValue modulusBytes ≡ -1
      [ZMOD 2 ^ 64]
  radixSquared_holds :
    context.Holds context.radixSquared
      ((2 ^ (64 * context.width)) ^ 2 % bigEndianValue modulusBytes)
  one_holds :
    context.Holds context.one
      (2 ^ (64 * context.width) % bigEndianValue modulusBytes)
  modulusMinusTwo_holds :
    context.Holds context.modulusMinusTwo (bigEndianValue modulusBytes - 2)

/-- A context that has been made has the constants of its string. -/
theorem hasConstants_of_ofBytes
    {modulusBytes : Bytes}
    {context : Context}
    (made : ofBytes modulusBytes = .ok context) :
    context.HasConstants modulusBytes := by
  rcases sound_of_ofBytes made with ⟨sound, value, width, modulusLength⟩
  have positive := sound.reducer.modulus_pos
  have square :
      (2 ^ (64 * context.width)) ^ 2 = 2 ^ (2 * 64 * context.width) := by
    rw [← Nat.pow_mul]
    congr 1
    ring
  constructor
  case width_eq => exact width
  case modulusLength_eq => exact modulusLength
  case modulus_value => exact value
  case negInverse_mul =>
    rw [← value]
    exact sound.reducer.negInverse_mul_modulus
  case radixSquared_holds =>
    rw [← value, square]
    exact
      ⟨sound.radixSquared_length, sound.radixSquared_value,
        Nat.mod_lt _ positive⟩
  case one_holds =>
    rw [← value]
    exact ⟨sound.one_length, sound.one_value, Nat.mod_lt _ positive⟩
  case modulusMinusTwo_holds =>
    have difference := sound.modulusMinusTwo_value
    rw [← value]
    exact ⟨sound.modulusMinusTwo_length, by omega, by omega⟩

theorem ofBytes_eq_notEnoughData_iff
    (modulusBytes : Bytes) :
    ofBytes modulusBytes = .error .notEnoughData ↔ modulusBytes = [] := by
  rw [ofBytes_eq]
  split_ifs with empty refused <;> simp [empty]

theorem ofBytes_eq_value_iff
    (modulusBytes : Bytes) :
    ofBytes modulusBytes = .error .value ↔
      modulusBytes ≠ [] ∧
        (bigEndianValue modulusBytes % 2 = 0 ∨
          bigEndianValue modulusBytes = 1) := by
  rw [ofBytes_eq]
  split_ifs with empty refused
  · simp [empty]
  · simp [empty, refused]
  · simp [refused]

theorem exists_ofBytes_eq_ok_iff
    (modulusBytes : Bytes) :
    (∃ context, ofBytes modulusBytes = .ok context) ↔
      modulusBytes ≠ [] ∧
        bigEndianValue modulusBytes % 2 = 1 ∧
        bigEndianValue modulusBytes ≠ 1 := by
  rw [ofBytes_eq]
  split_ifs with empty refused
  · simp [empty]
  · simp only [exists_false, false_iff]
    omega
  · have isOdd : bigEndianValue modulusBytes % 2 = 1 := by
      omega
    exact iff_of_true ⟨_, rfl⟩ ⟨empty, isOdd, fun one => refused (.inr one)⟩

/--
The three ways to make a context of a string: an empty string is missing data,
an even number or one is refused, and every other string makes a context with
the constants of its number.
-/
theorem ofBytes_outcomes
    (modulusBytes : Bytes) :
    (ofBytes modulusBytes = .error .notEnoughData ↔ modulusBytes = []) ∧
      (ofBytes modulusBytes = .error .value ↔
        modulusBytes ≠ [] ∧
          (bigEndianValue modulusBytes % 2 = 0 ∨
            bigEndianValue modulusBytes = 1)) ∧
      ((∃ context,
          ofBytes modulusBytes = .ok context ∧
            context.HasConstants modulusBytes) ↔
        modulusBytes ≠ [] ∧
          bigEndianValue modulusBytes % 2 = 1 ∧
          bigEndianValue modulusBytes ≠ 1) := by
  refine
    ⟨ofBytes_eq_notEnoughData_iff modulusBytes,
      ofBytes_eq_value_iff modulusBytes, ?_⟩
  rw [← exists_ofBytes_eq_ok_iff]
  constructor
  · rintro ⟨context, made, -⟩
    exact ⟨context, made⟩
  · rintro ⟨context, made⟩
    exact ⟨context, made, hasConstants_of_ofBytes made⟩

end Context

end ModularLadder.Montgomery
