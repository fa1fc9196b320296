import Mathlib
import ModularLadder.Proofs.Montgomery.Arithmetic

/-!
# Byte strings in and out of Montgomery form

A string enters exactly if it is not empty and its number is below the
modulus, however many zeros lead it.  The number then stands in the form as a
residue.  A form leaves as the least number of its residue, at the length of
the buffer.

Zero, one and equality are told from forms alone, because every residue has
one form only.
-/

namespace ModularLadder.Montgomery.Context

open Bytes (bigEndianValue ofNatBigEndian)

/-- The form of a string that is given one. -/
def encoded (context : Context) (number : Bytes) : Words :=
  (context.multiply
    (Words.ofBigEndian context.zero (number.dropWhile (· == 0)))
    context.radixSquared).evaluate context.width

/-- A string that is too long without its zeros is not below the modulus. -/
theorem modulus_le_of_length_lt
    (context : Context)
    (number : Bytes)
    (long : 8 * context.width < (number.dropWhile (· == 0)).length) :
    Words.value context.modulus ≤ bigEndianValue number := by
  rw [← Bytes.bigEndianValue_dropWhile number]
  cases digits : number.dropWhile (· == 0) with
  | nil =>
    rw [digits] at long
    exact absurd long (Nat.not_lt_zero _)
  | cons byte rest =>
    have nonzero : byte ≠ 0 := by
      have nonempty : number.dropWhile (· == 0) ≠ [] := by
        rw [digits]
        exact List.cons_ne_nil _ _
      have notDropped := List.head_dropWhile_not (· == 0) nonempty
      simpa [digits] using notDropped
    have leading := Bytes.pow_le_bigEndianValue_cons byte rest nonzero
    have modulusBound := Words.value_lt context.modulus
    have weight : 2 ^ (64 * context.width) ≤ 256 ^ rest.length := by
      rw [digits, List.length_cons] at long
      rw [show 256 = 2 ^ 8 from rfl, ← Nat.pow_mul]
      apply Nat.pow_le_pow_right (by decide)
      omega
    exact le_trans (le_of_lt modulusBound) (le_trans weight leading)

/-- A string that fits the width without its zeros is taken whole. -/
theorem value_plain
    (context : Context)
    (number : Bytes)
    (fits : (number.dropWhile (· == 0)).length ≤ 8 * context.width) :
    Words.value
        (Words.ofBigEndian context.zero (number.dropWhile (· == 0))) =
      bigEndianValue number := by
  rw [Words.value_ofBigEndian_of_length_le, Bytes.bigEndianValue_dropWhile]
  simpa using fits

/-- Which strings enter, and what refuses the others. -/
theorem encode_eq
    (context : Context)
    (number : Bytes) :
    context.encode number =
      if number = [] then
        .error .notEnoughData
      else if bigEndianValue number < Words.value context.modulus then
        .ok (context.encoded number)
      else
        .error .value := by
  by_cases empty : number = []
  · subst empty
    rfl
  · have notEmpty : number.isEmpty = false := by
      simpa using empty
    rw [if_neg empty]
    by_cases long :
        8 * context.width < (number.dropWhile (· == 0)).length
    · have large := modulus_le_of_length_lt context number long
      rw [if_neg (Nat.not_lt.2 large)]
      simp only [encode, notEmpty, Bool.false_eq_true, if_false, long, if_true]
      rfl
    · have compared :=
        Words.lt_eq
          (Words.ofBigEndian context.zero (number.dropWhile (· == 0)))
          context.modulus
          (by simp; rfl)
      rw [value_plain context number (Nat.not_lt.1 long)] at compared
      simp only [encode, notEmpty, Bool.false_eq_true, if_false, long,
        compared, Choice.isSet_ofBool]
      by_cases below : bigEndianValue number < Words.value context.modulus
      · simp only [below, decide_true, if_true]
        rfl
      · simp only [below, decide_false, if_false]
        rfl

/-- A buffer is filled from the reduced number, unless it is too short. -/
theorem run_decode
    (context : Context)
    (number : Words)
    (buffer : Bytes) :
    (context.decode number).run.run buffer =
      if buffer.length < context.modulusLength then
        (.error .notEnoughData, buffer)
      else
        (.ok (),
          ofNatBigEndian buffer.length
            (Words.value
              ((context.multiply number context.plainOne).evaluate
                context.width))) := by
  rw [← Words.toBigEndian_eq]
  show
    (ite (buffer.length < context.modulusLength) (_ : BufferM Unit) _).run.run
        buffer = _
  by_cases short : buffer.length < context.modulusLength
  · rw [if_pos short, if_pos short]
    rfl
  · rw [if_neg short, if_neg short]
    rfl

section

variable
  {context : Context}
  (sound : context.Sound)

include sound

/-- A number below the modulus stands in its form as a residue. -/
theorem Sound.represents_encoded
    (number : Bytes)
    (below : bigEndianValue number < Words.value context.modulus) :
    context.Represents (context.encoded number)
      (bigEndianValue number : context.Residues) := by
  have fits : (number.dropWhile (· == 0)).length ≤ 8 * context.width := by
    apply Nat.le_of_not_lt
    intro long
    exact absurd (modulus_le_of_length_lt context number long)
      (Nat.not_le.2 below)
  have plain :
      context.Represents
        (Words.ofBigEndian context.zero (number.dropWhile (· == 0)))
        ((bigEndianValue number : context.Residues) * context.radix⁻¹) := by
    apply sound.reducer.represents_of_cast
    · simp
    · rw [value_plain context number fits]
      exact below
    · rw [value_plain context number fits, mul_assoc,
        mul_comm context.radix⁻¹, sound.reducer.radix_mul_inv, mul_one]
  have entered :=
    (sound.reducer.multiply_yields plain
      sound.represents_radixSquared).evaluate
  rw [mul_assoc, mul_comm context.radix⁻¹, sound.reducer.radix_mul_inv,
    mul_one] at entered
  exact entered

/-- A form multiplied by the plain one is the least number of its residue. -/
theorem Sound.value_decoded
    {number : Words}
    {residue : context.Residues}
    (form : context.Represents number residue) :
    Words.value
        ((context.multiply number context.plainOne).evaluate context.width) =
      residue.val := by
  have left :=
    (sound.reducer.multiply_yields form sound.represents_plainOne).evaluate
  have cast := sound.reducer.cast_of_represents left
  rw [mul_assoc, mul_comm context.radix⁻¹, sound.reducer.radix_mul_inv,
    mul_one] at cast
  rw [← cast, ZMod.val_natCast, Nat.mod_eq_of_lt left.below]

/-- What a buffer holds after a form has left. -/
theorem Sound.decode_eq
    {number : Words}
    {residue : context.Residues}
    (form : context.Represents number residue)
    (buffer : Bytes) :
    (context.decode number).run.run buffer =
      if buffer.length < context.modulusLength then
        (.error .notEnoughData, buffer)
      else
        (.ok (), ofNatBigEndian buffer.length residue.val) := by
  rw [run_decode, sound.value_decoded form]

theorem Sound.isZero_eq
    {number : Words}
    {residue : context.Residues}
    (form : context.Represents number residue) :
    Words.isZero number = Choice.ofBool (decide (residue = 0)) := by
  rw [Words.isZero_eq]
  congr 1
  apply decide_eq_decide.2
  exact sound.value_eq_zero_iff form

theorem Sound.eq_eq
    {left right : Words}
    {leftResidue rightResidue : context.Residues}
    (leftForm : context.Represents left leftResidue)
    (rightForm : context.Represents right rightResidue) :
    Words.eq left right =
      Choice.ofBool (decide (leftResidue = rightResidue)) := by
  rw [Words.eq_eq _ _ (leftForm.width.trans rightForm.width.symm)]
  congr 1
  apply decide_eq_decide.2
  exact sound.reducer.represents_inj leftForm rightForm

theorem Sound.isOne_eq
    {number : Words}
    {residue : context.Residues}
    (form : context.Represents number residue) :
    context.isOne number = Choice.ofBool (decide (residue = 1)) :=
  sound.eq_eq form sound.represents_one

end

end ModularLadder.Montgomery.Context
