import Mathlib
import ModularLadder.Proofs.Montgomery.Encoding

/-!
# The way into Montgomery form and back

A string enters if it is not empty and its number is below the modulus, and a
number of the context's width leaves if the buffer is at least as long as the
string that gave the modulus.  Such a buffer has room for every number below
the modulus, so that nothing is lost on the way: what has entered leaves as
the same number, and what has left enters as the same words.

What leaves is the quotient by the radix `R` modulo the modulus.  It is reduced
even if the words were not below the modulus.
-/

namespace ModularLadder.Montgomery.Context

open Bytes (bigEndianValue ofNatBigEndian)

/-- What a context for a modulus makes of strings and of words. -/
structure Converts (context : Context) (modulus : Bytes) : Prop where
  /-- An empty string holds no number. -/
  encode_notEnoughData_iff (number : Bytes) :
    context.encode number = .error .notEnoughData ↔ number = []
  /-- A number has to be below the modulus, whatever zeros lead it. -/
  encode_value_iff (number : Bytes) :
    context.encode number = .error .value ↔
      bigEndianValue modulus ≤ bigEndianValue number
  /-- A buffer shorter than the modulus is refused and left alone. -/
  decode_short (form : Words) (buffer : Bytes) :
    form.length = context.width →
      buffer.length < modulus.length →
        (context.decode form).run.run buffer = (.error .notEnoughData, buffer)
  /-- Any other one is filled with the quotient by `R`. -/
  decode_filled (form : Words) :
    form.length = context.width →
      ∃ plain < bigEndianValue modulus,
        2 ^ (64 * context.width) * plain ≡ Words.value form
            [MOD bigEndianValue modulus] ∧
          ∀ buffer : Bytes,
            modulus.length ≤ buffer.length →
              (context.decode form).run.run buffer =
                (.ok (), ofNatBigEndian buffer.length plain)
  /-- What enters leaves as the same number. -/
  decode_encode (number : Bytes) :
    number ≠ [] →
      bigEndianValue number < bigEndianValue modulus →
        ∃ form,
          context.encode number = .ok form ∧
            ∀ buffer : Bytes,
              modulus.length ≤ buffer.length →
                (context.decode form).run.run buffer =
                  (.ok (),
                    ofNatBigEndian buffer.length (bigEndianValue number))
  /-- What leaves enters as the same words. -/
  encode_decode (form : Words) (buffer : Bytes) :
    form.length = context.width →
      Words.value form < bigEndianValue modulus →
        modulus.length ≤ buffer.length →
          ∃ written,
            (context.decode form).run.run buffer = (.ok (), written) ∧
              context.encode written = .ok form

theorem encode_eq_notEnoughData_iff
    (context : Context)
    (number : Bytes) :
    context.encode number = .error .notEnoughData ↔ number = [] := by
  rw [encode_eq]
  by_cases empty : number = []
  · exact iff_of_true (if_pos empty) empty
  · rw [if_neg empty]
    refine iff_of_false ?_ empty
    split <;> simp

/--
A number is refused for its value exactly if it is not below the modulus.  That
of the empty string is zero and never refused for its value.
-/
theorem encode_eq_value_iff
    {context : Context}
    (modulus_pos : 0 < Words.value context.modulus)
    (number : Bytes) :
    context.encode number = .error .value ↔
      Words.value context.modulus ≤ bigEndianValue number := by
  rw [encode_eq]
  by_cases empty : number = []
  · subst empty
    exact iff_of_false (by simp) (Nat.not_le.2 modulus_pos)
  · rw [if_neg empty]
    by_cases below : bigEndianValue number < Words.value context.modulus
    · rw [if_pos below]
      exact iff_of_false (by simp) (Nat.not_le.2 below)
    · rw [if_neg below]
      exact iff_of_true rfl (Nat.not_lt.1 below)

section

variable
  {context : Context}
  (sound : context.Sound)

include sound

/--
The product with the plain one is the quotient by `R`.  The words need not be
below the modulus: their number is below the radix, which is room enough.
-/
theorem Sound.reduces_plain
    {form : Words}
    (width : form.length = context.width) :
    context.Reduces (Words.value form)
      ((context.multiply form context.plainOne).evaluate context.width) := by
  have plainWidth : context.plainOne.length = context.width :=
    sound.represents_plainOne.width
  have room :
      Words.value form * Words.value context.plainOne <
        Words.value context.modulus * 2 ^ (64 * context.width) := by
    have bound := Words.value_lt form
    rw [width] at bound
    rw [sound.value_plainOne, Nat.mul_one]
    exact
      bound.trans_le (Nat.le_mul_of_pos_left _ sound.reducer.modulus_pos)
  have reduces :=
    (sound.reducer.multiply_exact (Scratch.ofWidth context.width)
      (Scratch.fits_ofWidth context.width) form context.plainOne width
      plainWidth room).1
  rw [sound.value_plainOne, Nat.mul_one] at reduces
  exact reduces

/-- Words below the modulus represent their quotient by `R`. -/
theorem Sound.represents_of_quotient
    {form : Words}
    {plain : Nat}
    (width : form.length = context.width)
    (below : Words.value form < Words.value context.modulus)
    (quotient :
      2 ^ (64 * context.width) * plain ≡ Words.value form
        [MOD Words.value context.modulus]) :
    context.Represents form (plain : context.Residues) := by
  apply sound.reducer.represents_of_cast width below
  have congruent := (ZMod.natCast_eq_natCast_iff _ _ _).2 quotient
  rw [← congruent, Nat.cast_mul, mul_comm]
  rfl

end

section

variable
  {modulus : Bytes}
  {context : Context}
  (made : ofBytes modulus = .ok context)

include made

/-- What leaves into any buffer. -/
theorem exists_quotient
    {form : Words}
    (width : form.length = context.width) :
    ∃ plain < bigEndianValue modulus,
      2 ^ (64 * context.width) * plain ≡ Words.value form
          [MOD bigEndianValue modulus] ∧
        ∀ buffer : Bytes,
          (context.decode form).run.run buffer =
            if buffer.length < modulus.length then
              (.error .notEnoughData, buffer)
            else
              (.ok (), ofNatBigEndian buffer.length plain) := by
  rcases sound_of_ofBytes made with ⟨sound, modulusValue, -, modulusLength⟩
  have reduces := sound.reduces_plain width
  rw [← modulusValue, ← modulusLength]
  exact ⟨_, reduces.below, reduces.congruent, context.run_decode form⟩

/-- A number below the modulus that has entered leaves again. -/
theorem exists_encoded
    {number : Bytes}
    (nonempty : number ≠ [])
    (below : bigEndianValue number < bigEndianValue modulus) :
    ∃ form,
      context.encode number = .ok form ∧
        context.Represents form (bigEndianValue number : context.Residues) ∧
        ∀ buffer : Bytes,
          (context.decode form).run.run buffer =
            if buffer.length < modulus.length then
              (.error .notEnoughData, buffer)
            else
              (.ok (),
                ofNatBigEndian buffer.length (bigEndianValue number)) := by
  rcases sound_of_ofBytes made with ⟨sound, modulusValue, -, modulusLength⟩
  rw [← modulusValue] at below
  have represents := sound.represents_encoded number below
  have least :
      (bigEndianValue number : context.Residues).val = bigEndianValue number :=
    ZMod.val_natCast_of_lt below
  refine ⟨context.encoded number, ?_, represents, ?_⟩
  · rw [encode_eq, if_neg nonempty, if_pos below]
  · intro buffer
    rw [sound.decode_eq represents, least, modulusLength]

/-- A number below the modulus that has left enters again. -/
theorem encode_ofNatBigEndian
    {form : Words}
    {plain length : Nat}
    (width : form.length = context.width)
    (below : Words.value form < bigEndianValue modulus)
    (plainBelow : plain < bigEndianValue modulus)
    (quotient :
      2 ^ (64 * context.width) * plain ≡ Words.value form
        [MOD bigEndianValue modulus])
    (room : modulus.length ≤ length) :
    context.encode (ofNatBigEndian length plain) = .ok form := by
  rcases sound_of_ofBytes made with ⟨sound, modulusValue, -, -⟩
  have fits : plain < 256 ^ length :=
    calc plain
        < bigEndianValue modulus := plainBelow
      _ < 256 ^ modulus.length := Bytes.bigEndianValue_lt modulus
      _ ≤ 256 ^ length := Nat.pow_le_pow_right (by decide) room
  have number : bigEndianValue (ofNatBigEndian length plain) = plain := by
    rw [Bytes.bigEndianValue_ofNatBigEndian, Nat.mod_eq_of_lt fits]
  have nonempty : ofNatBigEndian length plain ≠ [] := by
    intro empty
    have none := Bytes.length_ofNatBigEndian length plain
    rw [empty, List.length_nil] at none
    rw [← none, Nat.le_zero, List.length_eq_zero_iff] at room
    subst room
    cases made
  rcases exists_encoded made nonempty (number.symm ▸ plainBelow) with
    ⟨other, encoded, represents, -⟩
  rw [number] at represents
  rw [← modulusValue] at below quotient
  have same :=
    sound.reducer.represents_unique represents
      (sound.represents_of_quotient width below quotient)
  rw [encoded, same]

/--
Every context that has been made converts strings into Montgomery form and
back.
-/
theorem converts_of_ofBytes :
    context.Converts modulus := by
  rcases sound_of_ofBytes made with ⟨sound, modulusValue, -, -⟩
  constructor
  case encode_notEnoughData_iff =>
    exact context.encode_eq_notEnoughData_iff
  case encode_value_iff =>
    intro number
    rw [← modulusValue]
    exact encode_eq_value_iff sound.reducer.modulus_pos number
  case decode_short =>
    intro form buffer width short
    rcases exists_quotient made width with ⟨plain, -, -, decoded⟩
    rw [decoded, if_pos short]
  case decode_filled =>
    intro form width
    rcases exists_quotient made width with ⟨plain, below, quotient, decoded⟩
    refine ⟨plain, below, quotient, ?_⟩
    intro buffer room
    rw [decoded, if_neg (Nat.not_lt.2 room)]
  case decode_encode =>
    intro number nonempty below
    rcases exists_encoded made nonempty below with
      ⟨form, encoded, -, decoded⟩
    refine ⟨form, encoded, ?_⟩
    intro buffer room
    rw [decoded, if_neg (Nat.not_lt.2 room)]
  case encode_decode =>
    intro form buffer width below room
    rcases exists_quotient made width with
      ⟨plain, plainBelow, quotient, decoded⟩
    refine ⟨ofNatBigEndian buffer.length plain, ?_, ?_⟩
    · rw [decoded, if_neg (Nat.not_lt.2 room)]
    · exact encode_ofNatBigEndian made width below plainBelow quotient room

end

/--
A modulus of nine bytes with a leading zero, whose highest word is zero.
-/
theorem converts_of_ofBytes_leadingZero :
    ∃ context,
      ofBytes [0, 1, 0, 0, 0, 0, 0, 0, 1] = .ok context ∧
        context.Converts [0, 1, 0, 0, 0, 0, 0, 0, 1] := by
  have made := ofBytes_eq [0, 1, 0, 0, 0, 0, 0, 0, 1]
  rw [if_neg (by decide), if_neg (by decide)] at made
  exact ⟨_, made, converts_of_ofBytes made⟩

end ModularLadder.Montgomery.Context
