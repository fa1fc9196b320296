import Mathlib
import ModularLadder.Proofs.MontgomeryCurve

/-!
# Coordinates that two parties share

Key agreement knows points by one number each: their x-coordinate, or zero if
they are at infinity.  The number does not tell a point from its opposite, nor
the point at infinity from the one of order two.  Yet it determines the
numbers of all multiples, since opposite points have opposite multiples, and
the multiples of both points with the number zero have the number zero again.

The quotient of the ladder's outcome, with zero in place of the inverse of
zero, is this number.  For the base zero the formulas degenerate, but the
denominator of the outcome is zero whatever the bits are.

Parties that answer with the numbers of multiples come to share one, since it
does not matter for the multiple whose turn is first.
-/

namespace ModularLadder.MontgomeryCurve

open WeierstrassCurve.Affine (Point)

variable
  {K : Type*}
  [Field K]
  {A a24 x X Z : K}

/-- The x-coordinate of a point, or zero for the point at infinity. -/
def coordinate : (curve A).Point → K
  | .zero => 0
  | .some x _ _ => x

section

variable
  {P Q : (curve A).Point}

/-- A fraction that represents a point gives its coordinate. -/
theorem Represents.quotient
    (represents : Represents X Z P) :
    X * Z⁻¹ = coordinate P := by
  cases P with
  | zero => rw [represents.2, inv_zero, mul_zero, coordinate]
  | some x y h =>
    rcases represents with ⟨numerator, denominator⟩
    rw [numerator, mul_inv_cancel_right₀ denominator, coordinate]

theorem coordinate_neg
    (P : (curve A).Point) :
    coordinate (-P) = coordinate P := by
  cases P with
  | zero => rfl
  | some x y h => rfl

/-- Points with the same coordinate other than zero are opposite or equal. -/
theorem eq_or_eq_neg_of_coordinate
    (same : coordinate P = coordinate Q)
    (nonzero : coordinate Q ≠ 0) :
    P = Q ∨ P = -Q := by
  cases P with
  | zero => exact absurd same.symm nonzero
  | some x₁ y₁ h₁ =>
    cases Q with
    | zero => exact absurd rfl nonzero
    | some x₂ y₂ h₂ => exact Point.X_eq_iff.1 same

/-- The coordinate of every point is that of a finite one. -/
theorem exists_finite
    (smooth : Smooth A)
    (P : (curve A).Point) :
    ∃ y, (curve A).Nonsingular (coordinate P) y := by
  cases P with
  | zero =>
    refine ⟨0, smooth.nonsingular ?_⟩
    rw [coordinate]
    ring
  | some x y h => exact ⟨y, h⟩

/-- Over a closed field every number is the coordinate of a finite point. -/
theorem exists_coordinate
    [IsAlgClosed K]
    (smooth : Smooth A)
    (x : K) :
    ∃ P : (curve A).Point, coordinate P = x := by
  rcases smooth.exists_nonsingular x with ⟨y, h⟩
  exact ⟨.some x y h, rfl⟩

variable
  [DecidableEq K]

/-- Multiples of a point with the coordinate zero have it as well. -/
theorem coordinate_nsmul_of_eq_zero
    (zero : coordinate P = 0)
    (n : Nat) :
    coordinate (n • P) = 0 := by
  cases P with
  | zero =>
    rw [← Point.zero_def, nsmul_zero]
    rfl
  | some x y h =>
    have origin : x = 0 := zero
    subst origin
    rw [nsmul_of_order_two]
    by_cases odd : n % 2 = 1
    · rw [if_pos odd]
      rfl
    · rw [if_neg odd]
      rfl

/-- The coordinates of multiples depend on the coordinate of the point only. -/
theorem coordinate_nsmul_congr
    (same : coordinate P = coordinate Q)
    (n : Nat) :
    coordinate (n • P) = coordinate (n • Q) := by
  by_cases zero : coordinate Q = 0
  · rw [coordinate_nsmul_of_eq_zero zero,
      coordinate_nsmul_of_eq_zero (same.trans zero)]
  · rcases eq_or_eq_neg_of_coordinate same zero with equal | opposite
    · rw [equal]
    · rw [opposite, smul_neg, coordinate_neg]

end

/--
The ladder of the base zero ends with the denominator zero: beside it, one of
the upper coordinates stays zero at every bit.
-/
theorem ladder_zero_denominator
    (bits : List Bool) :
    (ExactLadder.ladder a24 0 bits).z2 = 0 := by
  have run (rungs : ExactLadder.Rungs K)
      (invariant : rungs.z2 = 0 ∧ rungs.x3 * rungs.z3 = 0) :
      (bits.foldl (ExactLadder.Rungs.bit a24 0) rungs).z2 = 0 := by
    induction bits generalizing rungs with
    | nil => exact invariant.1
    | cons bit bits ih =>
      apply ih
      rcases invariant with ⟨lower, upper⟩
      cases bit with
      | false =>
        simp [ExactLadder.Rungs.bit, ExactLadder.Rungs.step,
          ExactLadder.Rungs.swapIf, lower]
      | true =>
        have difference :
            (rungs.x3 + rungs.z3) ^ 2 - (rungs.x3 - rungs.z3) ^ 2 = 0 := by
          linear_combination 4 * upper
        simp [ExactLadder.Rungs.bit, ExactLadder.Rungs.step,
          ExactLadder.Rungs.swapIf, difference]
  rw [ExactLadder.ladder_eq]
  exact run _ ⟨rfl, zero_mul 1⟩

/-- The quotient of the ladder's outcome is the coordinate of the multiple. -/
theorem ladder_quotient
    [DecidableEq K]
    {P : (curve A).Point}
    (smooth : Smooth A)
    (constant : 4 * a24 = A - 2)
    (base : coordinate P = x)
    (bits : List Bool) :
    (ExactLadder.ladder a24 x bits).x2 *
        (ExactLadder.ladder a24 x bits).z2⁻¹ =
      coordinate (Scalar.climbed bits 0 • P) := by
  by_cases zero : x = 0
  · subst zero
    rw [ladder_zero_denominator, inv_zero, mul_zero,
      coordinate_nsmul_of_eq_zero base]
  · cases P with
    | zero => exact absurd base.symm zero
    | some x' y h =>
      have same : x' = x := base
      subst same
      exact (ladder_represents smooth constant zero bits).quotient

/--
The quotient is the coordinate of the multiple as well if it is computed in a
smaller field, which has the coordinate of the base but need not have a point
with it.
-/
theorem algebraMap_ladder_quotient
    {k : Type*}
    [Field k]
    [Algebra k K]
    [DecidableEq K]
    {P : (curve A).Point}
    {slope u : k}
    (smooth : Smooth A)
    (constant : 4 * algebraMap k K slope = A - 2)
    (base : coordinate P = algebraMap k K u)
    (bits : List Bool) :
    algebraMap k K
        ((ExactLadder.ladder slope u bits).x2 *
          (ExactLadder.ladder slope u bits).z2⁻¹) =
      coordinate (Scalar.climbed bits 0 • P) := by
  have image := ExactLadder.map_ladder (algebraMap k K) slope u bits
  have quotient := ladder_quotient smooth constant base bits
  rw [← image] at quotient
  rw [map_mul, map_inv₀]
  exact quotient

/--
Two parties come to share a number, if each of them answers with the coordinate
of its multiple of any point that has the coordinate it is given.
-/
theorem exists_shared
    {k Party : Type*}
    [Field k]
    [Algebra k K]
    [IsAlgClosed K]
    [DecidableEq K]
    {number : Party → Nat}
    {answers : Party → k → k → Prop}
    (smooth : Smooth A)
    (multiplies :
      ∀ {P : (curve A).Point} {u : k},
        coordinate P = algebraMap k K u →
          ∀ party, ∃ answer,
            coordinate (number party • P) = algebraMap k K answer ∧
              answers party u answer)
    (first second : Party)
    (u : k) :
    ∃ a b shared,
      answers first u a ∧
        answers second u b ∧
        answers second a shared ∧
        answers first b shared := by
  rcases exists_coordinate smooth (algebraMap k K u) with ⟨P, base⟩
  rcases multiplies base first with ⟨a, a_eq, first_u⟩
  rcases multiplies base second with ⟨b, b_eq, second_u⟩
  rcases multiplies a_eq second with ⟨shared, shared_eq, second_a⟩
  rcases multiplies b_eq first with ⟨other, other_eq, first_b⟩
  rw [smul_comm, shared_eq] at other_eq
  rw [← (algebraMap k K).injective other_eq] at first_b
  exact ⟨a, b, shared, first_u, second_u, second_a, first_b⟩

end ModularLadder.MontgomeryCurve
