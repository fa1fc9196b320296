import Mathlib
import ModularLadder.Curve448.KeyAgreement
import ModularLadder.Proofs.Curve448.Point
import ModularLadder.Proofs.SharedCoordinate

/-!
# Two parties agree on Curve448

A coordinate of 56 bytes is less than twice the prime, so that one difference
reduces it and the point with this coordinate is always accepted.  The answer
of key agreement is the coordinate of the multiple, over any field that has a
point with the given one, and it is canonical.  So the order in which two
scalars follow each other does not matter.

The point at infinity is written as zero, and zero is read as the point of
order two.  Nothing is lost by that: the multiples of both are written as zero
again.
-/

namespace ModularLadder.Curve448

open Bytes (littleEndianValue ofNatBigEndian ofNatLittleEndian)
open Field448 (IsForm Residue onScratch prime)
open MontgomeryCurve (coordinate)

/-- The affine x-coordinate, computed on temporaries of points. -/
def affineOnScratch
    (field : Montgomery.Context)
    (coordinates : Coordinates) :
    WorkplaceM Words := do
  let inverse ← onScratch (field.inverse coordinates.z)
  onScratch (field.multiply coordinates.x inverse)

/-- The residue of a number that takes as many bytes as a coordinate. -/
def readResidue (bytes : Bytes) : Residue :=
  (littleEndianValue bytes % 256 ^ Field448.byteLength : Nat)

/-- A residue is read as it was written. -/
theorem readResidue_written
    (x : Residue) :
    readResidue (ofNatLittleEndian Field448.byteLength x.val) = x := by
  have room : prime < 256 ^ Field448.byteLength := by
    decide
  rw [readResidue, Bytes.littleEndianValue_ofNatLittleEndian, Nat.mod_mod,
    Nat.mod_eq_of_lt ((ZMod.val_lt x).trans room), ZMod.natCast_zmod_val]

section

variable
  {context : CurveContext}
  (sound : context.Sound)

include sound

/-- The coordinate is reduced to the least number of its residue. -/
theorem reducedCoordinate_eq
    (u : Bytes) :
    reducedCoordinate context u =
      ofNatBigEndian Field448.byteLength (readResidue u).val := by
  have made := sound.made
  let modulus := context.field.modulus
  let number := Words.ofLittleEndian context.field.zero u
  have modulus_eq : Words.value modulus = prime := Field448.modulus_eq made
  have width : context.field.zero.length = Field448.width :=
    (Field448.isForm_zero made).proper.length
  have sameWidth : modulus.length = number.length := by
    rw [Words.length_ofLittleEndian, width]
    exact Field448.width_eq made
  have number_eq :
      Words.value number =
        littleEndianValue u % 256 ^ Field448.byteLength := by
    have bits : 64 * Field448.width = 8 * Field448.byteLength := rfl
    rw [Words.value_ofLittleEndian, width, bits, Nat.pow_mul]
  have bound : Words.value number < 2 * Words.value modulus := by
    have positive : 0 < 256 ^ Field448.byteLength := by
      decide
    have twice : 256 ^ Field448.byteLength < 2 * prime := by
      decide
    rw [number_eq, modulus_eq]
    exact (Nat.mod_lt _ positive).trans twice
  have reduced := Words.value_subIf_ge number modulus sameWidth bound
  rw [reducedCoordinate, Words.toBigEndian_eq, List.length_replicate, reduced,
    number_eq, modulus_eq, readResidue, ZMod.val_natCast]

variable
  {K : Type*}
  [Field K]
  [Algebra Residue K]
  {P : CurvePoint K}

/-- The quotient is the form of the coordinate that the point stands for. -/
theorem Point.Stands.affineOnScratch
    {point : Point}
    (stands : point.Stands context P) :
    ∃ shared : Residue,
      algebraMap Residue K shared = coordinate P ∧
        IsForm
          ((affineOnScratch context.field point.coordinates).run
            point.workplace).1
          shared := by
  have made := sound.made
  rcases stands.coordinates with ⟨x, z, forms, fraction⟩
  have ensures :
      Workplace.room.Ensures
        (Curve448.affineOnScratch context.field point.coordinates)
        fun number workplace =>
          IsForm number (x * z⁻¹) ∧ Workplace.room.holds workplace := by
    refine (Field448.inverse_yields made forms.z_form).bind fun _ inverse => ?_
    exact (Field448.multiply_yields made forms.x_form inverse).ensures
  exact ⟨x * z⁻¹, fraction.ratio, (ensures point.workplace stands.room).1⟩

end

/-- What is answered once the coordinate has been accepted. -/
theorem agree_of_accepted
    {context : CurveContext}
    {base : Point}
    {scalar u written : Bytes}
    (made : CurveContext.ofIdentity 0 = .ok context)
    (accepted :
      Point.ofBytes context (reducedCoordinate context u) = .ok base)
    (encoded :
      let multiple := base.scale scalar.reverse
      Field448.encode context.field
          ((affineOnScratch context.field multiple.coordinates).run
            multiple.workplace).1 =
        .ok written) :
    agree scalar u = .ok written.reverse := by
  have bind_ok {α β : Type} (value : α) (next : α → Except Failure β) :
      (Except.ok value >>= next) = next value :=
    rfl
  have agree_def :
      agree scalar u =
        (do
          let curve ← CurveContext.ofIdentity 0
          let base ← Point.ofBytes curve (reducedCoordinate curve u)
          let written ←
            Field448.encode curve.field
              ((affineOnScratch curve.field
                (base.scale scalar.reverse).coordinates).run
                  (base.scale scalar.reverse).workplace).1
          return written.reverse) :=
    rfl
  rw [agree_def, made, bind_ok, accepted, bind_ok, encoded]
  rfl

/-- What a scalar answers to a coordinate with a given residue. -/
def Answers (scalar : Bytes) (x answer : Residue) : Prop :=
  ∀ u, readResidue u = x →
    agree scalar u = .ok (ofNatLittleEndian Field448.byteLength answer.val)

/--
Key agreement answers with the coordinate of the multiple.  It reads a finite
point of that coordinate, although the given one may be at infinity.
-/
theorem answers_coordinate
    {K : Type*}
    [Field K]
    [Algebra Residue K]
    [DecidableEq K]
    {P : CurvePoint K}
    {x : Residue}
    (reads : coordinate P = algebraMap Residue K x)
    (scalar : Bytes) :
    ∃ answer : Residue,
      coordinate (littleEndianValue scalar • P) =
          algebraMap Residue K answer ∧
        Answers scalar x answer := by
  rcases CurveContext.exists_ofIdentity 0 with ⟨context, made, sound⟩
  rcases MontgomeryCurve.exists_finite (smooth_coefficient K) P with ⟨y, h⟩
  rw [reads] at h
  rcases Point.ofResidue_stands sound h with ⟨base, accepted, stands⟩
  have multiple := stands.scale sound scalar.reverse
  rw [Bytes.bigEndianValue_reverse] at multiple
  rcases multiple.affineOnScratch sound with ⟨answer, answer_eq, form⟩
  have written := Field448.encode_form_eq sound.made form
  refine ⟨answer, ?_, ?_⟩
  · rw [answer_eq]
    exact MontgomeryCurve.coordinate_nsmul_congr reads _
  · rintro u rfl
    rw [← reducedCoordinate_eq sound u] at accepted
    rw [agree_of_accepted made accepted written, ofNatBigEndian,
      List.reverse_reverse]

/--
Two parties agree: both orders in which two scalars are used have an answer,
and it is the same.  The scalars need not be clamped, and the coordinate is
any, canonical or not.
-/
theorem parties_agree
    (first second u : Bytes) :
    ∃ a b shared,
      agree first u = .ok a ∧
        agree second u = .ok b ∧
        agree second a = .ok shared ∧
        agree first b = .ok shared := by
  classical
  let K := AlgebraicClosure Residue
  rcases
      MontgomeryCurve.exists_shared (smooth_coefficient K) answers_coordinate
        first second (readResidue u) with
    ⟨a, b, shared, first_u, second_u, second_a, first_b⟩
  exact
    ⟨_, _, _, first_u u rfl, second_u u rfl,
      second_a _ (readResidue_written a), first_b _ (readResidue_written b)⟩

end ModularLadder.Curve448
