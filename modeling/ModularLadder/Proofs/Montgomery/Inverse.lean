import Mathlib
import ModularLadder.Proofs.Montgomery.Arithmetic
import ModularLadder.Proofs.Primality
import ModularLadder.Proofs.Scalar

/-!
# The power that inverts

Inversion raises a number to the power `N - 2`.  Its exponent is read from the
words of `N - 2`, most significant bit first and without leading zeros.  A
step squares the power and multiplies it by the base for a set bit, so that
the exponent is the number which the bits have given so far.

The power is the same for any modulus, and zero stays zero.  Whether it is the
inverse depends on the modulus being prime: then its product with the number
is one, for every number but zero.
-/

namespace ModularLadder

/-- The bits of a number up to a place, read from the highest one down. -/
theorem Scalar.reverse_testBits
    (count number : Nat) :
    ((List.range count).map number.testBit).reverse =
      highestFirst count number := by
  induction count with
  | zero => rfl
  | succ count ih =>
    rw [List.range_succ, List.map_append, List.reverse_append, ih]
    rfl

namespace Word

/-- A bit that is shifted to the lowest place and masked. -/
theorem shiftedBit_eq
    (word : Word)
    (position : Nat)
    (inside : position < 64) :
    ((word >>> UInt64.ofNat position) &&& 1 != 0) =
      word.toNat.testBit position := by
  have shift : (UInt64.ofNat position).toNat % 64 = position := by
    rw [UInt64.toNat_ofNat']
    omega
  have number :
      ((word >>> UInt64.ofNat position) &&& 1).toNat =
        word.toNat / 2 ^ position % 2 := by
    rw [UInt64.toNat_and, UInt64.toNat_shiftRight, shift,
      Nat.shiftRight_eq_div_pow]
    exact Nat.and_one_is_mod _
  rw [Nat.testBit_eq_decide_div_mod_eq, ← number, Bool.eq_iff_iff,
    bne_iff_ne, decide_eq_true_eq, ne_eq, ← UInt64.toNat_inj, number,
    UInt64.toNat_zero]
  omega

/-- The bits of a word, written from the most significant one. -/
theorem reverse_bits
    (word : Word) :
    (bits word).reverse = Scalar.highestFirst 64 word.toNat := by
  rw [← Scalar.reverse_testBits]
  congr 1
  apply List.map_congr_left
  intro position mem
  exact shiftedBit_eq word position (List.mem_range.1 mem)

end Word

namespace Words

/-- The bits of a long number, written from the most significant one. -/
theorem reverse_bits_eq
    (number : Words) :
    (number.flatMap Word.bits).reverse =
      Scalar.highestFirst (64 * number.length) (value number) := by
  induction number with
  | nil => rfl
  | cons word rest ih =>
    have bound := word.toNat_lt
    have upper : value (word :: rest) / 2 ^ 64 = value rest := by
      rw [value_cons]
      omega
    rw [List.flatMap_cons, List.reverse_append, ih, Word.reverse_bits,
      List.length_cons, Nat.mul_succ, Scalar.highestFirst_append, upper,
      value_cons, Scalar.highestFirst_add_mul]

end Words

/-- Leading zeros do not change the number that bits lead to. -/
theorem Scalar.climbed_dropWhile
    (bits : List Bool) :
    climbed (bits.dropWhile (! ·)) 0 = climbed bits 0 := by
  induction bits with
  | nil => rfl
  | cons bit bits ih =>
    cases bit with
    | false => exact ih
    | true => rfl

namespace Montgomery.Context

section

variable
  {context : Context}
  (sound : context.Sound)

include sound

/-- The exponent of inversion is `N - 2`. -/
theorem Sound.climbed_inversionBits :
    Scalar.climbed context.inversionBits 0 =
      Words.value context.modulus - 2 := by
  have bound := Words.value_lt context.modulusMinusTwo
  have exact := sound.modulusMinusTwo_value
  rw [inversionBits, Scalar.climbed_dropWhile, Words.reverse_bits_eq,
    Scalar.climbed_of_lt bound]
  omega

section

variable
  {number : Words}
  {residue : context.Residues}
  (form : context.Represents number residue)

include form

/-- One step doubles the exponent and adds the bit. -/
theorem Sound.powerStep_yields
    {power : Words}
    {exponent : Nat}
    (powerForm : context.Represents power (residue ^ exponent))
    (bit : Bool) :
    context.Yields (context.powerStep number power bit)
      (residue ^ (2 * exponent + bit.toNat)) := by
  have doubled : residue ^ exponent * residue ^ exponent =
      residue ^ (2 * exponent) := by
    rw [← pow_add, ← two_mul]
  rw [powerStep]
  apply (sound.reducer.square_yields powerForm).bind
  intro squared squaredForm
  rw [doubled] at squaredForm
  cases bit with
  | false => exact ScratchM.Ensures.pure squaredForm
  | true =>
    have multiplied := sound.reducer.multiply_yields squaredForm form
    rw [← pow_succ] at multiplied
    exact multiplied

/-- The steps along any bits reach the exponent that the bits give. -/
theorem Sound.powerSteps_yields
    (bits : List Bool)
    {power : Words}
    {exponent : Nat}
    (powerForm : context.Represents power (residue ^ exponent)) :
    context.Yields (bits.foldlM (context.powerStep number) power)
      (residue ^ Scalar.climbed bits exponent) := by
  induction bits generalizing power exponent with
  | nil => exact ScratchM.Ensures.pure powerForm
  | cons bit bits ih =>
    rw [List.foldlM_cons]
    apply (sound.powerStep_yields form powerForm bit).bind
    intro next nextForm
    exact ih nextForm

/-- Inversion is the power with exponent `N - 2`, for any modulus. -/
theorem Sound.inverse_yields :
    context.Yields (context.inverse number)
      (residue ^ (Words.value context.modulus - 2)) := by
  have one : context.Represents context.one (residue ^ 0) := by
    rw [pow_zero]
    exact sound.represents_one
  rw [← sound.climbed_inversionBits]
  exact sound.powerSteps_yields form context.inversionBits one

end

/-- An odd modulus above one is above two: the exponent is positive. -/
theorem Sound.two_lt_modulus :
    2 < Words.value context.modulus := by
  have isOdd := sound.reducer.isOdd
  have one_lt := sound.one_lt
  omega

/-- Modulo a prime the power is the inverse of every other residue than zero. -/
theorem Sound.mul_power_eq_one
    (prime : (Words.value context.modulus).Prime)
    {residue : context.Residues}
    (nonzero : residue ≠ 0) :
    residue * residue ^ (Words.value context.modulus - 2) = 1 := by
  have : Fact (Words.value context.modulus).Prime := ⟨prime⟩
  rw [Primality.pow_sub_two sound.two_lt_modulus]
  exact mul_inv_cancel₀ nonzero

end

/-- What the power with exponent `N - 2` is for the form of a residue. -/
structure Inverts (context : Context) (number power : Words) : Prop where
  /-- The form of the residue's power, whether or not `N` is prime. -/
  represents :
    context.Represents power
      (context.residue number ^ (Words.value context.modulus - 2))
  zero : Words.value number = 0 → power = context.zero
  /-- Modulo a prime, either product with the power is the form of one. -/
  multiply_eq_one :
    (Words.value context.modulus).Prime →
      Words.value number ≠ 0 →
        ScratchM.Ensures context.width (context.multiply number power)
            (· = context.one) ∧
          ScratchM.Ensures context.width (context.multiply power number)
            (· = context.one)

theorem Sound.inverts
    {context : Context}
    (sound : context.Sound)
    {number power : Words}
    (form : context.Represents number (context.residue number))
    (powerForm :
      context.Represents power
        (context.residue number ^ (Words.value context.modulus - 2))) :
    context.Inverts number power := by
  have isZero := sound.value_eq_zero_iff form
  have isOne :
      ∀ one, context.Represents one 1 → one = context.one := by
    intro one oneForm
    exact sound.reducer.represents_unique oneForm sound.represents_one
  constructor
  case represents => exact powerForm
  case zero =>
    intro zero
    have exponent : Words.value context.modulus - 2 ≠ 0 :=
      Nat.sub_ne_zero_of_lt sound.two_lt_modulus
    rw [isZero.1 zero, zero_pow exponent] at powerForm
    exact sound.reducer.represents_unique powerForm sound.represents_zero
  case multiply_eq_one =>
    intro prime nonzero
    have product := sound.mul_power_eq_one prime (mt isZero.2 nonzero)
    have numberFirst := sound.reducer.multiply_yields form powerForm
    have powerFirst := sound.reducer.multiply_yields powerForm form
    rw [product] at numberFirst
    rw [mul_comm, product] at powerFirst
    exact ⟨numberFirst.mono isOne, powerFirst.mono isOne⟩

/--
Inversion answers with the form of the power for every number below the
modulus, and leaves temporaries that fit.
-/
theorem inverse_inverts
    {modulusBytes : Bytes}
    {context : Context}
    (made : ofBytes modulusBytes = .ok context)
    {number : Words}
    (width : number.length = context.width)
    (below : Words.value number < Words.value context.modulus) :
    ScratchM.Ensures context.width (context.inverse number)
      (context.Inverts number) := by
  have sound := (sound_of_ofBytes made).1
  have form : context.Represents number (context.residue number) :=
    ⟨width, below, rfl⟩
  apply (sound.inverse_yields form).mono
  intro power powerForm
  exact sound.inverts form powerForm

/--
A prime modulus in nine bytes, so that the highest word of the exponent is
zero.
-/
theorem inverse_inverts_modulo_ninetySeven :
    let modulus : Bytes := [0, 0, 0, 0, 0, 0, 0, 0, 97]
    let context := ofModulus (modulusOfBytes modulus) modulus.length
    let power := (context.inverse [5, 0]).evaluate context.width
    ofBytes modulus = .ok context ∧
      context.Inverts [5, 0] power ∧
      power = [51, 0] ∧
      (context.multiply [5, 0] power).evaluate context.width =
        context.one := by
  intro modulus context power
  have made : ofBytes modulus = .ok context := by
    rw [ofBytes_eq, if_neg (by decide), if_neg (by decide)]
  have modulusValue : Words.value context.modulus = 97 := by
    decide +kernel
  have prime : (Words.value context.modulus).Prime := by
    rw [modulusValue]
    norm_num
  have inverts : context.Inverts [5, 0] power :=
    (inverse_inverts made (by decide +kernel) (by decide +kernel)).evaluate
  have product := (inverts.multiply_eq_one prime (by decide)).1
  exact ⟨made, inverts, by decide +kernel, product.evaluate⟩

end Montgomery.Context

end ModularLadder
