import Mathlib
import ModularLadder.Proofs.Field448.Prime
import ModularLadder.Proofs.Montgomery.Encoding
import ModularLadder.Proofs.Montgomery.Inverse

/-!
# Elements modulo `2^448 - 2^224 - 1` in seven words

An element is the Montgomery form, in seven words, of a residue modulo the
prime.  All contexts for this modulus have the same forms, so that an element
can be spoken of without its context.

The operations of a context on elements are those of the field of residues.
As the modulus is prime, the power that ends inversion is the inverse.
-/

namespace ModularLadder.Field448

open Bytes (bigEndianValue ofNatBigEndian)
open Montgomery (Context ScratchM)

/-! ## Forms and what they represent -/

/-- The words of an element. -/
def width : Nat :=
  7

/-- The radix of Montgomery forms of seven words. -/
def radix : Residue :=
  (2 ^ 448 : Nat)

/-- The residue that a number is the Montgomery form of. -/
def residue (number : Words) : Residue :=
  (Words.value number : Residue) * radix⁻¹

/-- Seven words whose number is below the modulus. -/
structure Proper (number : Words) : Prop where
  length : number.length = width
  below : Words.value number < prime

/-- A number is the Montgomery form of a residue. -/
structure IsForm (number : Words) (x : Residue) : Prop where
  proper : Proper number
  residue_eq : residue number = x

/-- A proper number is the form of its residue. -/
theorem Proper.isForm
    {number : Words}
    (proper : Proper number) :
    IsForm number (residue number) :=
  ⟨proper, rfl⟩

/-- The computation answers with the Montgomery form of a residue. -/
def Yields (computation : ScratchM Words) (x : Residue) : Prop :=
  computation.Ensures width fun number => IsForm number x

theorem bigEndianValue_primeBytes :
    bigEndianValue primeBytes = prime := by
  rw [primeBytes, Bytes.bigEndianValue_ofNatBigEndian]
  exact Nat.mod_eq_of_lt (by decide)

/-- The modulus makes a context. -/
theorem exists_context :
    ∃ field, context = .ok field := by
  have nonempty : primeBytes ≠ [] := by
    intro empty
    have length := Bytes.length_ofNatBigEndian byteLength prime
    rw [← primeBytes, empty] at length
    exact absurd length (by decide)
  have admissible : ¬(prime % 2 = 0 ∨ prime = 1) := by
    decide
  rw [context, Context.ofBytes_eq, bigEndianValue_primeBytes,
    if_neg nonempty, if_neg admissible]
  exact ⟨_, rfl⟩

/-- A written residue is read as the number it is. -/
@[simp]
theorem bigEndianValue_ofNat_val
    (x : Residue) :
    bigEndianValue (ofNatBigEndian byteLength x.val) = x.val := by
  have room : prime < 256 ^ byteLength := by
    decide
  rw [Bytes.bigEndianValue_ofNatBigEndian,
    Nat.mod_eq_of_lt ((ZMod.val_lt x).trans room)]

/-- Different residues are written differently. -/
theorem ofNatBigEndian_val_injective :
    Function.Injective fun x : Residue => ofNatBigEndian byteLength x.val := by
  intro x y same
  have values := congrArg bigEndianValue same
  simp only [bigEndianValue_ofNat_val] at values
  exact ZMod.val_injective prime values

/-! ## Forms under a context -/

section

variable
  {field : Context}
  (made : context = .ok field)

include made

theorem sound :
    field.Sound :=
  (Context.sound_of_ofBytes made).1

theorem modulus_eq :
    Words.value field.modulus = prime :=
  (Context.sound_of_ofBytes made).2.1.trans bigEndianValue_primeBytes

theorem width_eq :
    field.width = width := by
  rw [(Context.sound_of_ofBytes made).2.2.1, primeBytes,
    Bytes.length_ofNatBigEndian]
  rfl

theorem modulusLength_eq :
    field.modulusLength = byteLength := by
  simp [(Context.sound_of_ofBytes made).2.2.2, primeBytes]

theorem fits_ofWidth :
    (Montgomery.Scratch.ofWidth field.width).Fits width := by
  rw [width_eq made]
  exact Montgomery.Scratch.fits_ofWidth width

/-- The residues of a context for this modulus. -/
def toResidue : field.Residues ≃+* Residue :=
  ZMod.ringEquivCongr (modulus_eq made)

theorem toResidue_radix :
    toResidue made field.radix = radix := by
  have bits : 64 * width = 448 := rfl
  rw [Montgomery.Reducer.radix, map_natCast, width_eq made, bits, radix]

theorem toResidue_residue
    (number : Words) :
    toResidue made (field.residue number) = residue number := by
  have inverse : toResidue made field.radix⁻¹ = radix⁻¹ := by
    apply eq_inv_of_mul_eq_one_right
    rw [← toResidue_radix made, ← map_mul,
      (sound made).reducer.radix_mul_inv, map_one]
  rw [Montgomery.Reducer.residue, map_mul, map_natCast, inverse, residue]

/-- The forms of a context are the forms of the same residues. -/
theorem isForm_iff
    {number : Words}
    {x : Residue} :
    IsForm number x ↔
      field.Represents number ((toResidue made).symm x) := by
  have residues :
      field.residue number = (toResidue made).symm x ↔ residue number = x := by
    rw [← toResidue_residue made, ← RingEquiv.eq_symm_apply]
  constructor
  · rintro ⟨⟨length, below⟩, residue_eq⟩
    rw [← width_eq made] at length
    rw [← modulus_eq made] at below
    exact ⟨length, below, residues.2 residue_eq⟩
  · rintro ⟨length, below, residue_eq⟩
    rw [width_eq made] at length
    rw [modulus_eq made] at below
    exact ⟨⟨length, below⟩, residues.1 residue_eq⟩

theorem yields_iff
    {computation : ScratchM Words}
    {x : Residue} :
    Yields computation x ↔
      field.Yields computation ((toResidue made).symm x) := by
  rw [Yields, Montgomery.Reducer.Yields, ← width_eq made]
  simp only [isForm_iff made]

section

variable
  {left right : Words}
  {x y : Residue}

theorem isForm_zero :
    IsForm field.zero 0 := by
  rw [isForm_iff made, map_zero]
  exact (sound made).represents_zero

theorem isForm_neg
    (form : IsForm left x) :
    IsForm (field.neg left) (-x) := by
  rw [isForm_iff made] at form ⊢
  rw [map_neg]
  exact (sound made).represents_neg form

theorem multiply_yields
    (leftForm : IsForm left x)
    (rightForm : IsForm right y) :
    Yields (field.multiply left right) (x * y) := by
  rw [isForm_iff made] at leftForm rightForm
  rw [yields_iff made, map_mul]
  exact (sound made).reducer.multiply_yields leftForm rightForm

theorem square_yields
    (form : IsForm left x) :
    Yields (field.square left) (x ^ 2) := by
  rw [isForm_iff made] at form
  rw [yields_iff made, pow_two, map_mul]
  exact (sound made).reducer.square_yields form

theorem add_yields
    (leftForm : IsForm left x)
    (rightForm : IsForm right y) :
    Yields (field.add left right) (x + y) := by
  rw [isForm_iff made] at leftForm rightForm
  rw [yields_iff made, map_add]
  exact (sound made).add_yields leftForm rightForm

theorem addInPlace_yields
    (leftForm : IsForm left x)
    (rightForm : IsForm right y) :
    Yields (field.addInPlace left right) (x + y) := by
  rw [isForm_iff made] at leftForm rightForm
  rw [yields_iff made, map_add]
  exact (sound made).addInPlace_yields leftForm rightForm

theorem sub_yields
    (leftForm : IsForm left x)
    (rightForm : IsForm right y) :
    Yields (field.sub left right) (x - y) := by
  rw [isForm_iff made] at leftForm rightForm
  rw [yields_iff made, map_sub]
  exact (sound made).sub_yields leftForm rightForm

theorem subInPlace_yields
    (leftForm : IsForm left x)
    (rightForm : IsForm right y) :
    Yields (field.subInPlace left right) (x - y) := by
  rw [isForm_iff made] at leftForm rightForm
  rw [yields_iff made, map_sub]
  exact (sound made).subInPlace_yields leftForm rightForm

/-- The modulus is prime, so that the power of inversion is the inverse. -/
theorem inverse_yields
    (form : IsForm left x) :
    Yields (field.inverse left) x⁻¹ := by
  have inverse : x⁻¹ = x ^ (Words.value field.modulus - 2) := by
    rw [modulus_eq made, pow_prime_sub_two]
  rw [isForm_iff made] at form
  rw [yields_iff made, inverse, map_pow]
  exact (sound made).inverse_yields form

theorem encodeWord_yields
    (word : Word) :
    Yields (field.encodeWord word) (word.toNat : Residue) := by
  rw [yields_iff made, map_natCast]
  exact (sound made).encodeWord_yields word

theorem isForm_ofWord
    (word : Word) :
    IsForm (field.ofWord word) (word.toNat : Residue) := by
  have form := (encodeWord_yields made word).evaluate
  rwa [← width_eq made] at form

theorem isForm_ofWord_one :
    IsForm (field.ofWord 1) 1 := by
  simpa using isForm_ofWord made 1

theorem isForm_encoded
    (number : Bytes)
    (below : bigEndianValue number < prime) :
    IsForm (field.encoded number) (bigEndianValue number : Residue) := by
  rw [← modulus_eq made] at below
  rw [isForm_iff made, map_natCast]
  exact (sound made).represents_encoded number below

/-- Which strings of the proper length are elements. -/
theorem encode_eq
    {number : Bytes}
    (length : number.length = byteLength) :
    field.encode number =
      if bigEndianValue number < prime then
        .ok (field.encoded number)
      else
        .error .value := by
  have nonempty : number ≠ [] := by
    rintro rfl
    exact absurd length (by decide)
  rw [Context.encode_eq, if_neg nonempty, modulus_eq made]

/-- An element is written as the least number of its residue. -/
theorem encode_form_eq
    (form : IsForm left x) :
    encode field left = .ok (ofNatBigEndian byteLength x.val) := by
  have value :
      ((toResidue made).symm x).val = x.val := by
    rw [toResidue, ZMod.ringEquivCongr_symm, ZMod.ringEquivCongr_val]
  rw [isForm_iff made] at form
  rw [encode, (sound made).decode_eq form, modulusLength_eq made, value,
    List.length_replicate, if_neg (Nat.lt_irrefl _)]

end

end

/-! ## Comparison and exchange -/

/-- Numbers are equal exactly if they are forms of the same residue. -/
theorem eq_eq
    {left right : Words}
    {x y : Residue}
    (leftForm : IsForm left x)
    (rightForm : IsForm right y) :
    Words.eq left right = Choice.ofBool (decide (x = y)) := by
  rcases exists_context with ⟨field, made⟩
  rw [isForm_iff made] at leftForm rightForm
  rw [(sound made).eq_eq leftForm rightForm]
  congr 1
  apply decide_eq_decide.2
  exact (toResidue made).symm.injective.eq_iff

theorem isZero_eq
    {number : Words}
    {x : Residue}
    (form : IsForm number x) :
    Words.isZero number = Choice.ofBool (decide (x = 0)) := by
  rcases exists_context with ⟨field, made⟩
  rw [isForm_iff made] at form
  rw [(sound made).isZero_eq form]
  congr 1
  apply decide_eq_decide.2
  exact map_eq_zero_iff _ (toResidue made).symm.injective

/-- Elements are exchanged by a truth value. -/
@[simp]
theorem swapIf_ofBool
    {left right : Words}
    (leftProper : Proper left)
    (rightProper : Proper right)
    (condition : Bool) :
    Words.swapIf left right (Choice.ofBool condition) =
      if condition then (right, left) else (left, right) :=
  Words.swapIf_ofBool left right condition
    (rightProper.length.trans leftProper.length.symm)

end ModularLadder.Field448
