import Mathlib
import ModularLadder.Power
import ModularLadder.Proofs.BitWindow
import ModularLadder.Proofs.Montgomery.Encoding
import ModularLadder.Proofs.ScatterOutcome

/-!
# Windowed exponentiation is exact

The table holds the form of one power of the base for each digit, and a
scattered table gives back what has been put in, whatever the scramble words.
Appending a digit to the exponent raises a power to the radix of the digits and
multiplies it with the power for the digit.  The digits write the exponent;
hence the last power is the one wanted.
-/

namespace ModularLadder.Power

open Bytes (bigEndianValue ofNatBigEndian)
open Montgomery

/-! ## The table of powers -/

section

variable
  {context : Context}
  (sound : context.Sound)
  {base : Words}
  {residue : context.Residues}
  (baseForm : context.Represents base residue)

include sound

theorem squareTimes_yields
    (count : Nat)
    {number : Words}
    {power : context.Residues}
    (form : context.Represents number power) :
    context.Yields (squareTimes context count number) (power ^ 2 ^ count) := by
  induction count generalizing number power with
  | zero =>
    rw [Nat.pow_zero, pow_one]
    exact ScratchM.Ensures.pure form
  | succ count ih =>
    rw [squareTimes]
    apply (sound.reducer.square_yields form).bind
    intro squared squaredForm
    have raised := ih squaredForm
    rwa [← pow_two, ← pow_mul, ← Nat.pow_succ'] at raised

include baseForm

/-- The powers that follow a power of the base, one after the other. -/
theorem successivePowers_ensures
    (count exponent : Nat)
    {previous : Words}
    (previousForm : context.Represents previous (residue ^ exponent)) :
    (successivePowers context base count previous).Ensures context.width
      fun powers =>
        powers.length = count ∧
          ∀ index (inside : index < powers.length),
            context.Represents powers[index]
              (residue ^ (exponent + 1 + index)) := by
  induction count generalizing exponent previous with
  | zero =>
    apply ScratchM.Ensures.pure
    refine ⟨rfl, ?_⟩
    intro index inside
    exact absurd inside (Nat.not_lt_zero index)
  | succ count ih =>
    rw [successivePowers]
    apply (sound.reducer.multiply_yields previousForm baseForm).bind
    intro power powerForm
    rw [← pow_succ] at powerForm
    apply (ih (exponent + 1) powerForm).bind
    rintro powers ⟨length, forms⟩
    apply ScratchM.Ensures.pure
    refine ⟨by rw [List.length_cons, length], ?_⟩
    intro index inside
    cases index with
    | zero => exact powerForm
    | succ index =>
      have form := forms index (Nat.lt_of_succ_lt_succ inside)
      rw [List.getElem_cons_succ, Nat.add_comm index, ← Nat.add_assoc]
      exact form

/-- The table has the power of the base for each digit. -/
theorem powerTable_ensures :
    (powerTable context base).Ensures context.width fun powers =>
      powers.length = tableSize ∧
        ∀ index (inside : index < powers.length),
          context.Represents powers[index] (residue ^ index) := by
  have first : context.Represents base (residue ^ 1) := by
    rw [pow_one]
    exact baseForm
  rw [powerTable]
  apply (sound.reducer.square_yields baseForm).bind
  intro squared squaredForm
  rw [← pow_two] at squaredForm
  apply
    (successivePowers_ensures sound baseForm (tableSize - 3) 2
      squaredForm).bind
  rintro powers ⟨length, forms⟩
  apply ScratchM.Ensures.pure
  refine ⟨by simp only [List.length_cons, length]; rfl, ?_⟩
  intro index inside
  rcases index with _ | _ | _ | index
  · rw [pow_zero]
    exact sound.represents_one
  · exact first
  · exact squaredForm
  · have rest : index < powers.length := by
      simpa using inside
    have form := forms index rest
    rw [Nat.add_comm] at form
    exact form

end

/-! ## The digits of the exponent -/

/-- A table from which the powers of a residue can be gathered. -/
def Holds
    (context : Context)
    (table : ScatterTable)
    (residue : context.Residues) :
    Prop :=
  ∀ digit,
    digit < 2 ^ windowSize →
      context.Represents (table.gather context.zero digit) (residue ^ digit)

section

variable
  {context : Context}
  (sound : context.Sound)
  {table : ScatterTable}
  {residue : context.Residues}
  (holds : Holds context table residue)

/-- A scattered table of powers holds them, whatever the scramble words. -/
theorem scatter_holds
    {powers : List Words}
    (sound : context.Sound)
    (length : powers.length = tableSize)
    (forms :
      ∀ index (inside : index < powers.length),
        context.Represents powers[index] (residue ^ index))
    (scramble : Nat → UInt16) :
    ∃ table,
      ScatterTable.scatter powers scramble = .ok table ∧
        Holds context table residue := by
  have admissible : powers.length ∈ ScatterTable.admissibleCounts := by
    rw [length]
    decide
  have widths : ∀ number ∈ powers, number.length = context.width := by
    intro number mem
    rcases List.getElem_of_mem mem with ⟨index, inside, rfl⟩
    exact (forms index inside).width
  rcases
      ScatterTable.exists_givesBack scramble admissible widths
        sound.reducer.width_pos with
    ⟨table, made, givesBack⟩
  refine ⟨table, made, ?_⟩
  intro digit digit_lt
  have inside : digit < powers.length := by
    rw [length]
    exact digit_lt
  have form := forms digit inside
  have sameWidth : context.zero.length = powers[digit].length := by
    simpa using form.width.symm
  rw [givesBack.gather_eq digit inside context.zero sameWidth]
  exact form

include sound holds

theorem appendDigit_yields
    {exponent digit : Nat}
    (digit_lt : digit < 2 ^ windowSize)
    {power : Words}
    (form : context.Represents power (residue ^ exponent)) :
    context.Yields (appendDigit context table power digit)
      (residue ^ (2 ^ windowSize * exponent + digit)) := by
  rw [appendDigit]
  apply (squareTimes_yields sound windowSize form).bind
  intro raised raisedForm
  have appended :=
    sound.reducer.multiply_yields raisedForm (holds digit digit_lt)
  rwa [← pow_mul, ← pow_add, Nat.mul_comm exponent] at appended

/-- Appending digits to an exponent. -/
theorem appendDigits_yields
    (digits : List Nat)
    (digits_lt : ∀ digit ∈ digits, digit < 2 ^ windowSize)
    {exponent : Nat}
    {power : Words}
    (form : context.Represents power (residue ^ exponent)) :
    context.Yields (digits.foldlM (appendDigit context table) power)
      (residue ^
        digits.foldl (fun value digit => 2 ^ windowSize * value + digit)
          exponent) := by
  induction digits generalizing exponent power with
  | nil => exact ScratchM.Ensures.pure form
  | cons digit digits ih =>
    rw [List.forall_mem_cons] at digits_lt
    rw [List.foldlM_cons, List.foldl_cons]
    apply (appendDigit_yields sound holds digits_lt.1 form).bind
    intro appended appendedForm
    exact ih digits_lt.2 appendedForm

/-- The digits of an exponent lead to the power with this exponent. -/
theorem ofDigits_yields
    (exponent : Bytes) :
    context.Yields
      (ofDigits context table
        (BitWindow.ofBytes windowSize
          (exponent.dropWhile (· == 0))).digits)
      (residue ^ bigEndianValue exponent) := by
  rcases
      BitWindow.digits_ofBytes windowSize (exponent.dropWhile (· == 0))
        (by decide) with
    ⟨digits_lt, number⟩
  have one : context.Represents context.one (residue ^ 0) := by
    rw [pow_zero]
    exact sound.represents_one
  have yields := appendDigits_yields sound holds _ digits_lt one
  rw [BitWindow.positional, Bytes.bigEndianValue_dropWhile] at number
  rwa [number] at yields

end

/-! ## The checks on the operands -/

/-- An outcome that is not a failure hands its value on. -/
theorem run_lift_bind
    {α β : Type}
    {outcome : Except Failure α}
    {value : α}
    (ok : outcome = .ok value)
    (next : α → BufferM β)
    (buffer : Bytes) :
    ((liftM outcome : BufferM α) >>= next).run.run buffer =
      (next value).run.run buffer := by
  subst ok
  rfl

theorem run_get_bind
    {β : Type}
    (next : Bytes → BufferM β)
    (buffer : Bytes) :
    ((get : BufferM Bytes) >>= next).run.run buffer =
      (next buffer).run.run buffer :=
  rfl

/-- Which lengths pass, and what refuses the others. -/
theorem checkLengths_eq
    (modulus : Bytes)
    (lengths : List Nat) :
    checkLengths modulus lengths =
      if modulus = [] then
        .error .notEnoughData
      else if ∀ length ∈ lengths, length = modulus.length then
        .ok ()
      else
        .error .value := by
  by_cases empty : modulus = []
  · subst empty
    rfl
  · have notEmpty : modulus.isEmpty = false := by
      simpa using empty
    rw [if_neg empty]
    by_cases equal : ∀ length ∈ lengths, length = modulus.length
    · have noOther :
          (lengths.any fun length => length != modulus.length) = false := by
        simpa using equal
      rw [if_pos equal]
      simp only [checkLengths, notEmpty, noOther]
      rfl
    · have someOther :
          (lengths.any fun length => length != modulus.length) = true := by
        simpa using equal
      rw [if_neg equal]
      simp only [checkLengths, notEmpty, someOther]
      rfl

theorem checkLengths_ok
    {modulus : Bytes}
    {lengths : List Nat}
    (nonempty : modulus ≠ [])
    (equal : ∀ length ∈ lengths, length = modulus.length) :
    checkLengths modulus lengths = .ok () := by
  rw [checkLengths_eq, if_neg nonempty, if_pos equal]

/-! ## The power -/

section

variable
  (base exponent modulus buffer : Bytes)
  (isOdd : bigEndianValue modulus % 2 = 1)
  (one_lt : 1 < bigEndianValue modulus)
  (baseLength : base.length = modulus.length)
  (exponentLength : exponent.length = modulus.length)
  (bufferLength : buffer.length = modulus.length)
  (below : bigEndianValue base < bigEndianValue modulus)

include one_lt in
theorem modulus_ne_nil :
    modulus ≠ [] := by
  rintro rfl
  exact absurd one_lt (by decide)

include isOdd one_lt baseLength exponentLength bufferLength below

/-- Exponentiation with any scramble words. -/
theorem powWith_eq
    (scramble : Nat → UInt16) :
    (powWith scramble base exponent modulus).run.run buffer =
      (.ok (), ofNatBigEndian modulus.length
        (bigEndianValue base ^ bigEndianValue exponent %
          bigEndianValue modulus)) := by
  have nonempty := modulus_ne_nil modulus one_lt
  have lengths :
      checkLengths modulus [buffer.length, base.length, exponent.length] =
        .ok () := by
    apply checkLengths_ok nonempty
    simp [baseLength, exponentLength, bufferLength]
  obtain ⟨context, made⟩ :
      ∃ context, Context.ofBytes modulus = .ok context := by
    rw [Context.ofBytes_eq, if_neg nonempty, if_neg (by omega)]
    exact ⟨_, rfl⟩
  rcases Context.sound_of_ofBytes made with
    ⟨sound, modulusValue, _, modulusLength⟩
  have baseNonempty : base ≠ [] := by
    rintro rfl
    exact nonempty (List.eq_nil_of_length_eq_zero baseLength.symm)
  rw [← modulusValue] at below
  have encoded : context.encode base = .ok (context.encoded base) := by
    rw [Context.encode_eq, if_neg baseNonempty, if_pos below]
  have baseForm := sound.represents_encoded base below
  have tableEnsures :=
    powerTable_ensures sound baseForm (Scratch.ofWidth context.width)
      (Scratch.fits_ofWidth context.width)
  rcases tabulated :
      (powerTable context (context.encoded base)).run
        (Scratch.ofWidth context.width) with
    ⟨powers, scratch⟩
  rw [tabulated] at tableEnsures
  rcases tableEnsures with ⟨⟨tableLength, tableForms⟩, fits⟩
  rcases scatter_holds sound tableLength tableForms scramble with
    ⟨table, scattered, holds⟩
  rcases ofDigits_yields sound holds exponent scratch fits with ⟨result, -⟩
  have decoded := sound.decode_eq result buffer
  have residueValue :
      ((bigEndianValue base : context.Residues) ^
          bigEndianValue exponent).val =
        bigEndianValue base ^ bigEndianValue exponent %
          bigEndianValue modulus := by
    rw [← Nat.cast_pow, ZMod.val_natCast, modulusValue]
  rw [if_neg (by rw [modulusLength, bufferLength]; exact Nat.lt_irrefl _),
    residueValue, bufferLength] at decoded
  rw [powWith, run_get_bind, run_lift_bind lengths, run_lift_bind made,
    run_lift_bind encoded, tabulated]
  exact (run_lift_bind scattered _ buffer).trans decoded

/--
The buffer is filled with the power, at the length of the modulus, for every
stream of scramble words and so for every seed.
-/
theorem pow_exact :
    (∀ scramble : Nat → UInt16,
      (powWith scramble base exponent modulus).run.run buffer =
        (.ok (), ofNatBigEndian modulus.length
          (bigEndianValue base ^ bigEndianValue exponent %
            bigEndianValue modulus))) ∧
      ∀ seed : UInt64,
        (pow base exponent modulus seed).run.run buffer =
          (.ok (), ofNatBigEndian modulus.length
            (bigEndianValue base ^ bigEndianValue exponent %
              bigEndianValue modulus)) := by
  have exact :=
    powWith_eq base exponent modulus buffer isOdd one_lt baseLength
      exponentLength bufferLength below
  constructor
  · exact exact
  · intro seed
    exact exact (ScatterTable.scrambleWord seed)

end

/-- The third power of 200 modulo 257, and zero to the power of zero. -/
theorem pow_exact_modulo_257 :
    (∀ seed : UInt64,
      (pow [0, 200] [0, 3] [1, 1] seed).run.run [7, 7] =
        (.ok (), [0, 104])) ∧
      ∀ seed : UInt64,
        (pow [0, 0] [0, 0] [1, 1] seed).run.run [7, 7] =
          (.ok (), [0, 1]) := by
  have cube :=
    (pow_exact [0, 200] [0, 3] [1, 1] [7, 7] (by decide) (by decide) rfl rfl
      rfl (by decide)).2
  have empty :=
    (pow_exact [0, 0] [0, 0] [1, 1] [7, 7] (by decide) (by decide) rfl rfl
      rfl (by decide)).2
  have cubed :
      ofNatBigEndian 2
        (bigEndianValue [0, 200] ^ bigEndianValue [0, 3] %
          bigEndianValue [1, 1]) = [0, 104] := by
    decide
  have emptied :
      ofNatBigEndian 2
        (bigEndianValue [0, 0] ^ bigEndianValue [0, 0] %
          bigEndianValue [1, 1]) = [0, 1] := by
    decide
  constructor
  · intro seed
    rw [← cubed]
    exact cube seed
  · intro seed
    rw [← emptied]
    exact empty seed

end ModularLadder.Power
