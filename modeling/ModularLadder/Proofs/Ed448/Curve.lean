import Mathlib
import ModularLadder.Ed448.Point
import ModularLadder.Proofs.EdwardsGroup
import ModularLadder.Proofs.Field448.Workplace

/-!
# Ed448 is a complete Edwards curve

The coefficient `-39081` is not a square modulo `2^448 - 2^224 - 1`: its power
with exponent `(p - 1) / 2` is minus one.  So the curve has no exceptional
points, and its points form a group.  Every context has the coefficient of the
curve in Montgomery form.
-/

namespace ModularLadder.Ed448

open Bytes (bigEndianValue ofNatBigEndian)
open Field448 (IsForm Residue prime)

/-- The coefficient of the curve. -/
def coefficient : Residue :=
  -(39081 : Nat)

theorem two_ne_zero :
    (2 : Residue) ≠ 0 :=
  Primality.two_ne_zero (by decide)

/-- The number that the program has for the coefficient. -/
theorem natCast_coefficient :
    ((prime - 39081 : Nat) : Residue) = coefficient := by
  have least : 39081 ≤ prime := by
    decide
  rw [Nat.cast_sub least, ZMod.natCast_self, zero_sub, coefficient]

/-- The coefficient is not a square, by Euler's criterion. -/
theorem not_isSquare_coefficient :
    ¬IsSquare coefficient := by
  have power :
      Primality.powerModulo prime (prime - 39081) 112 (prime / 2) =
        prime - 1 := by
    decide +kernel
  rw [← natCast_coefficient]
  exact Primality.not_isSquare_of_power (by decide) (by decide) power

/-- The curve `x^2 + y^2 = 1 + d * x^2 * y^2`. -/
def curve : EdwardsCurve Residue where
  a := 1
  d := coefficient
  two_ne_zero := two_ne_zero
  a_ne_zero := one_ne_zero
  isSquare_a := IsSquare.one
  not_isSquare_d := not_isSquare_coefficient

@[simp]
theorem curve_a :
    curve.a = 1 :=
  rfl

@[simp]
theorem curve_d :
    curve.d = coefficient :=
  rfl

/-- A point of the curve, as an element of the group. -/
abbrev CurvePoint : Type :=
  curve.Point

/-- The written coefficient is the number that it is. -/
theorem bigEndianValue_coefficient :
    bigEndianValue (ofNatBigEndian Field448.byteLength (prime - 39081)) =
      prime - 39081 := by
  rw [Bytes.bigEndianValue_ofNatBigEndian]
  exact Nat.mod_eq_of_lt (by decide)

/-- What the points under a context need of it. -/
structure CurveContext.Sound (context : CurveContext) : Prop where
  made : Field448.context = .ok context.field
  d_form : IsForm context.d coefficient

/-- Every identity makes a context. -/
theorem CurveContext.exists_ofIdentity
    (identity : Nat) :
    ∃ context,
      CurveContext.ofIdentity identity = .ok context ∧ context.Sound := by
  rcases Field448.exists_context with ⟨field, made⟩
  have below :
      bigEndianValue (ofNatBigEndian Field448.byteLength (prime - 39081)) <
        prime := by
    rw [bigEndianValue_coefficient]
    decide
  have form := Field448.isForm_encoded made _ below
  rw [bigEndianValue_coefficient, natCast_coefficient] at form
  have encoded :=
    Field448.encode_eq made
      (Bytes.length_ofNatBigEndian Field448.byteLength (prime - 39081))
  rw [if_pos below] at encoded
  refine ⟨{ identity := identity, field := field, d := _ }, ?_, made, form⟩
  rw [CurveContext.ofIdentity, made]
  change (field.encode _ >>= _) = _
  rw [encoded]
  rfl

theorem CurveContext.sound_of_ofIdentity
    {identity : Nat}
    {context : CurveContext}
    (made : CurveContext.ofIdentity identity = .ok context) :
    context.Sound := by
  rcases exists_ofIdentity identity with ⟨other, other_made, sound⟩
  rw [made] at other_made
  rw [Except.ok.inj other_made]
  exact sound

end ModularLadder.Ed448
