import Mathlib
import ModularLadder.Montgomery.Arithmetic
import ModularLadder.Montgomery.Encoding
import ModularLadder.Proofs.Montgomery.Context

/-!
# Montgomery forms represent residues

The Montgomery form of a residue is the number below `N` that is congruent to
the residue times `R`.  Since `R` is prime to `N`, every residue has exactly
one form, and a number represents its product with the inverse of `R`.

Each operation on forms is then the operation of the integers modulo `N` on
what they represent.  A statement about a computation on temporaries holds for
all temporaries of the right lengths, and says that it leaves such temporaries
behind, so that computations can follow one another.
-/

namespace ModularLadder.Montgomery

/--
On temporaries of the right lengths the computation has a result with the
property, and leaves such temporaries behind.
-/
def ScratchM.Ensures
    {α : Type}
    (width : Nat)
    (computation : ScratchM α)
    (holds : α → Prop) :
    Prop :=
  ∀ scratch : Scratch,
    scratch.Fits width →
      holds (StateT.run computation scratch).1 ∧
        (StateT.run computation scratch).2.Fits width

namespace ScratchM.Ensures

variable
  {α β : Type}
  {width : Nat}

theorem pure
    {holds : α → Prop}
    {value : α}
    (result : holds value) :
    ScratchM.Ensures width (Pure.pure value) holds := by
  intro scratch fits
  exact ⟨result, fits⟩

theorem bind
    {computation : ScratchM α}
    {next : α → ScratchM β}
    {holds : α → Prop}
    {finally_ : β → Prop}
    (first : ScratchM.Ensures width computation holds)
    (second :
      ∀ value, holds value → ScratchM.Ensures width (next value) finally_) :
    ScratchM.Ensures width (computation >>= next) finally_ := by
  intro scratch fits
  rcases first scratch fits with ⟨firstHolds, firstFits⟩
  exact second _ firstHolds _ firstFits

theorem mono
    {computation : ScratchM α}
    {holds weaker : α → Prop}
    (ensures : ScratchM.Ensures width computation holds)
    (implies : ∀ value, holds value → weaker value) :
    ScratchM.Ensures width computation weaker := by
  intro scratch fits
  rcases ensures scratch fits with ⟨result, after⟩
  exact ⟨implies _ result, after⟩

theorem evaluate
    {computation : ScratchM α}
    {holds : α → Prop}
    (ensures : ScratchM.Ensures width computation holds) :
    holds (computation.evaluate width) :=
  (ensures _ (Scratch.fits_ofWidth width)).1

end ScratchM.Ensures

namespace Reducer

/-- The integers modulo the modulus. -/
abbrev Residues (reducer : Reducer) : Type :=
  ZMod (Words.value reducer.modulus)

/-- The radix `R` as a residue. -/
def radix (reducer : Reducer) : reducer.Residues :=
  ((2 ^ (64 * reducer.width) : Nat) : ZMod _)

/-- The residue that a number is the Montgomery form of. -/
def residue (reducer : Reducer) (number : Words) : reducer.Residues :=
  (Words.value number : ZMod _) * reducer.radix⁻¹

/-- A number of the proper width below the modulus, with its residue. -/
structure Represents
    (reducer : Reducer)
    (number : Words)
    (residue : reducer.Residues) :
    Prop where
  width : number.length = reducer.width
  below : Words.value number < Words.value reducer.modulus
  residue_eq : reducer.residue number = residue

/-- The computation answers with the Montgomery form of a residue. -/
def Yields
    (reducer : Reducer)
    (computation : ScratchM Words)
    (residue : reducer.Residues) :
    Prop :=
  computation.Ensures reducer.width fun number =>
    reducer.Represents number residue

/-- The exact product of numbers below the modulus fits reduction. -/
theorem product_lt
    {reducer : Reducer}
    {left right : Words}
    (leftBelow : Words.value left < Words.value reducer.modulus)
    (rightBelow : Words.value right < Words.value reducer.modulus) :
    Words.value left * Words.value right <
      Words.value reducer.modulus * 2 ^ (64 * reducer.width) := by
  have modulusBound := Words.value_lt reducer.modulus
  exact Nat.mul_lt_mul'' leftBelow (lt_trans rightBelow modulusBound)

section

variable
  {reducer : Reducer}
  (sound : reducer.Sound)

include sound

theorem Sound.radix_mul_inv :
    reducer.radix * reducer.radix⁻¹ = 1 :=
  ZMod.coe_mul_inv_eq_one _ (sound.coprime _)

theorem Sound.cast_value
    (number : Words) :
    (Words.value number : reducer.Residues) =
      reducer.residue number * reducer.radix := by
  rw [residue, mul_assoc, mul_comm reducer.radix⁻¹, sound.radix_mul_inv,
    mul_one]

/-- A number below the modulus represents what it is a radix multiple of. -/
theorem Sound.represents_of_cast
    {number : Words}
    {residue : reducer.Residues}
    (width : number.length = reducer.width)
    (below : Words.value number < Words.value reducer.modulus)
    (cast : (Words.value number : reducer.Residues) = residue * reducer.radix) :
    reducer.Represents number residue := by
  refine ⟨width, below, ?_⟩
  rw [Reducer.residue, cast, mul_assoc, sound.radix_mul_inv, mul_one]

theorem Sound.cast_of_represents
    {number : Words}
    {residue : reducer.Residues}
    (form : reducer.Represents number residue) :
    (Words.value number : reducer.Residues) = residue * reducer.radix := by
  rw [sound.cast_value, form.residue_eq]

/-- Every residue has one Montgomery form only. -/
theorem Sound.residue_injective
    {left right : Words}
    (leftWidth : left.length = reducer.width)
    (rightWidth : right.length = reducer.width)
    (leftBelow : Words.value left < Words.value reducer.modulus)
    (rightBelow : Words.value right < Words.value reducer.modulus)
    (sameResidue : reducer.residue left = reducer.residue right) :
    left = right := by
  apply Words.eq_of_value_eq left right (leftWidth.trans rightWidth.symm)
  have casts :
      (Words.value left : reducer.Residues) = Words.value right := by
    rw [sound.cast_value, sound.cast_value, sameResidue]
  have congruent := (ZMod.natCast_eq_natCast_iff' _ _ _).1 casts
  rwa [Nat.mod_eq_of_lt leftBelow, Nat.mod_eq_of_lt rightBelow] at congruent

theorem Sound.represents_unique
    {left right : Words}
    {residue : reducer.Residues}
    (first : reducer.Represents left residue)
    (second : reducer.Represents right residue) :
    left = right :=
  sound.residue_injective first.width second.width first.below second.below
    (first.residue_eq.trans second.residue_eq.symm)

theorem Sound.represents_inj
    {left right : Words}
    {leftResidue rightResidue : reducer.Residues}
    (first : reducer.Represents left leftResidue)
    (second : reducer.Represents right rightResidue) :
    left = right ↔ leftResidue = rightResidue := by
  constructor
  · intro same
    rw [← first.residue_eq, ← second.residue_eq, same]
  · intro same
    subst same
    exact sound.represents_unique first second

/-- A reduced total represents the total divided by `R` twice. -/
theorem Sound.represents_of_reduces
    {total : Nat}
    {result : Words}
    (reduces : reducer.Reduces total result) :
    reducer.Represents result
      ((total : reducer.Residues) * reducer.radix⁻¹ * reducer.radix⁻¹) := by
  refine ⟨reduces.width, reduces.below, ?_⟩
  have congruent :=
    (ZMod.natCast_eq_natCast_iff _ _ _).2 reduces.congruent
  rw [Nat.cast_mul] at congruent
  change reducer.radix * (Words.value result : reducer.Residues) = total
    at congruent
  calc reducer.residue result
      = (reducer.radix * reducer.radix⁻¹) * reducer.residue result := by
        rw [sound.radix_mul_inv, one_mul]
    _ = (reducer.radix * (Words.value result : reducer.Residues)) *
          reducer.radix⁻¹ * reducer.radix⁻¹ := by
        rw [residue]
        ring
    _ = (total : reducer.Residues) * reducer.radix⁻¹ * reducer.radix⁻¹ := by
        rw [congruent]

theorem Sound.multiply_yields
    {left right : Words}
    {leftResidue rightResidue : reducer.Residues}
    (leftForm : reducer.Represents left leftResidue)
    (rightForm : reducer.Represents right rightResidue) :
    reducer.Yields (reducer.multiply left right)
      (leftResidue * rightResidue) := by
  intro scratch fits
  rcases
      sound.multiply_exact scratch fits left right leftForm.width
        rightForm.width (product_lt leftForm.below rightForm.below) with
    ⟨reduces, after⟩
  refine ⟨?_, after⟩
  have represents := sound.represents_of_reduces reduces
  rw [← leftForm.residue_eq, ← rightForm.residue_eq]
  convert represents using 1
  rw [Nat.cast_mul, residue, residue]
  ring

theorem Sound.square_yields
    {number : Words}
    {residue : reducer.Residues}
    (form : reducer.Represents number residue) :
    reducer.Yields (reducer.square number) (residue * residue) := by
  intro scratch fits
  rcases
      sound.square_exact scratch fits number form.width
        (product_lt form.below form.below) with
    ⟨reduces, after⟩
  refine ⟨?_, after⟩
  have represents := sound.represents_of_reduces reduces
  rw [← form.residue_eq]
  convert represents using 1
  rw [Nat.cast_mul, Reducer.residue]
  ring

end

end Reducer

end ModularLadder.Montgomery
