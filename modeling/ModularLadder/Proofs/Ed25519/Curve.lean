import Mathlib
import ModularLadder.Ed25519
import ModularLadder.Proofs.EdwardsGroup
import ModularLadder.Proofs.Field25519.Element

/-!
# Ed25519 is a complete Edwards curve

The constants of the program stand for the coefficient `-121665 / 121666` and
its double.  Minus one is a square modulo `2^255 - 19`, and the coefficient is
not: its power with exponent `(p - 1) / 2` is minus one.  So the curve has no
exceptional points, and its points form a group.
-/

namespace ModularLadder.Ed25519

open Field25519 (Element Residue prime)

/-- The coefficient of the curve. -/
def coefficient : Residue :=
  -((121665 : Nat) / (121666 : Nat))

theorem two_ne_zero :
    (2 : Residue) ≠ 0 :=
  Primality.two_ne_zero (by decide)

/-- The denominator of the coefficient is not a multiple of the modulus. -/
theorem denominator_ne_zero :
    (121666 : Residue) ≠ 0 := by
  have coprime : ¬prime ∣ 121666 := by
    decide
  intro zero
  exact coprime ((ZMod.natCast_eq_zero_iff 121666 prime).1 zero)

/-- The constant of the program is the coefficient of the curve. -/
theorem residue_d :
    d.residue = coefficient := by
  have multiple : prime ∣ d.value * 121666 + 121665 := by
    decide
  have zero := (ZMod.natCast_eq_zero_iff _ prime).2 multiple
  push_cast at zero
  rw [coefficient, Nat.cast_ofNat, Nat.cast_ofNat, ← neg_div,
    eq_div_iff denominator_ne_zero, Element.residue]
  linear_combination zero

theorem residue_twiceD :
    twiceD.residue = 2 * coefficient := by
  have double : twiceD.value ≡ 2 * d.value [MOD prime] := by
    decide
  rw [Element.residue, (ZMod.natCast_eq_natCast_iff _ _ _).2 double,
    Nat.cast_mul, Nat.cast_ofNat, ← Element.residue, residue_d]

theorem isSquare_neg_one :
    IsSquare (-1 : Residue) := by
  rw [ZMod.exists_sq_eq_neg_one_iff]
  decide

/-- The coefficient is not a square, by Euler's criterion. -/
theorem not_isSquare_coefficient :
    ¬IsSquare coefficient := by
  have power :
      Primality.powerModulo prime d.value 64 (prime / 2) = prime - 1 := by
    decide +kernel
  rw [← residue_d, Element.residue]
  exact Primality.not_isSquare_of_power (by decide) (by decide) power

/-- The curve `-x^2 + y^2 = 1 + d * x^2 * y^2`. -/
def curve : EdwardsCurve Residue where
  a := -1
  d := coefficient
  two_ne_zero := two_ne_zero
  a_ne_zero := neg_ne_zero.2 one_ne_zero
  isSquare_a := isSquare_neg_one
  not_isSquare_d := not_isSquare_coefficient

@[simp]
theorem curve_a :
    curve.a = -1 :=
  rfl

@[simp]
theorem curve_d :
    curve.d = coefficient :=
  rfl

end ModularLadder.Ed25519
