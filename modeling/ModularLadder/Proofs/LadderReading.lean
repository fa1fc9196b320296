import Mathlib
import ModularLadder.Proofs.ExactLadder
import ModularLadder.Proofs.Scalar

/-!
# The ladder and multiples in a group

A ladder works on fractions `X / Z` only, but what it finds is the multiple of
an element of a group.  The link is a reading of fractions as elements of the
group, for a base with a given coordinate.  The step has to respect it: the
first fraction of a step is read as the double, and the second one as the sum
of two elements whose difference is the base.

Then the two fractions are read as consecutive multiples of the base after
every bit, and the outcome as the multiple by the number that the bits write.
-/

namespace ModularLadder.ExactLadder

variable
  {R G : Type*}
  [CommRing R]
  [AddCommMonoid G]

/-- A step in terms of the coefficient of the curve. -/
theorem Rungs.step_eq
    {A a24 : R}
    (constant : 4 * a24 = A - 2)
    (x : R)
    (rungs : Rungs R) :
    rungs.step a24 x =
      { x2 := (rungs.x2 ^ 2 - rungs.z2 ^ 2) ^ 2
        z2 :=
          4 * rungs.x2 * rungs.z2 *
            (rungs.x2 ^ 2 + A * rungs.x2 * rungs.z2 + rungs.z2 ^ 2)
        x3 := 4 * (rungs.x2 * rungs.x3 - rungs.z2 * rungs.z3) ^ 2
        z3 := 4 * x * (rungs.x3 * rungs.z2 - rungs.x2 * rungs.z3) ^ 2 } := by
  rw [Rungs.step, Rungs.mk.injEq]
  refine ⟨?_, ?_, ?_, ?_⟩
  · ring
  · linear_combination (4 * rungs.x2 ^ 2 * rungs.z2 ^ 2) * constant
  · ring
  · ring

/--
A reading of fractions as elements of a group that is respected by the steps
for a base with the coordinate `x`.
-/
structure Reading
    (A x : R)
    (reads : R → R → G → Prop)
    (base : G) :
    Prop where
  infinity : reads 1 0 0
  affine : reads x 1 base
  double :
    ∀ {X Z : R} {P : G},
      reads X Z P →
        reads ((X ^ 2 - Z ^ 2) ^ 2)
          (4 * X * Z * (X ^ 2 + A * X * Z + Z ^ 2)) (P + P)
  sum :
    ∀ {X₂ Z₂ X₃ Z₃ : R} {P Q : G},
      reads X₂ Z₂ P →
        reads X₃ Z₃ Q →
        Q = P + base →
        reads (4 * (X₂ * X₃ - Z₂ * Z₃) ^ 2)
          (4 * x * (X₃ * Z₂ - X₂ * Z₃) ^ 2) (P + Q)

/-- The rungs are read as a multiple of an element and the next one. -/
structure Multiples
    (reads : R → R → G → Prop)
    (rungs : Rungs R)
    (base : G)
    (n : Nat) :
    Prop where
  lower : reads rungs.x2 rungs.z2 (n • base)
  upper : reads rungs.x3 rungs.z3 ((n + 1) • base)

variable
  {A a24 x : R}
  {reads : R → R → G → Prop}
  {base : G}
  {rungs : Rungs R}
  {n : Nat}

/-- The rungs double and add along each bit. -/
theorem Multiples.bit
    (multiples : Multiples reads rungs base n)
    (reading : Reading A x reads base)
    (constant : 4 * a24 = A - 2)
    (bit : Bool) :
    Multiples reads (rungs.bit a24 x bit) base (2 * n + bit.toNat) := by
  have next : (n + 1) • base = n • base + base :=
    succ_nsmul _ n
  have sum := reading.sum multiples.lower multiples.upper next
  rw [← add_nsmul, ← Nat.add_assoc, ← Nat.two_mul] at sum
  cases bit with
  | false =>
    have double := reading.double multiples.lower
    rw [← add_nsmul, ← Nat.two_mul] at double
    show Multiples reads (rungs.step a24 x) _ (2 * n)
    rw [Rungs.step_eq constant x]
    exact ⟨double, sum⟩
  | true =>
    have double := reading.double multiples.upper
    rw [← add_nsmul, ← Nat.two_mul, Nat.mul_succ] at double
    have swapped : rungs.swapIf true =
        { x2 := rungs.x3, z2 := rungs.z3, x3 := rungs.x2, z3 := rungs.z2 } :=
      rfl
    rw [mul_comm rungs.x2, mul_comm rungs.z2,
      ← neg_sub (rungs.x2 * rungs.z3), neg_sq] at sum
    rw [Rungs.bit, swapped, Rungs.step_eq constant x]
    exact ⟨sum, double⟩

theorem Reading.multiples_start
    (reading : Reading A x reads base) :
    Multiples reads (Rungs.start x) base 0 := by
  constructor
  · rw [zero_nsmul]
    exact reading.infinity
  · rw [zero_add, one_nsmul]
    exact reading.affine

/-- The outcome is read as the multiple by the number that the bits write. -/
theorem Reading.ladder
    (reading : Reading A x reads base)
    (constant : 4 * a24 = A - 2)
    (bits : List Bool) :
    reads (ExactLadder.ladder a24 x bits).x2
      (ExactLadder.ladder a24 x bits).z2
      (Scalar.climbed bits 0 • base) := by
  have run (rungs : Rungs R) (n : Nat)
      (multiples : Multiples reads rungs base n) :
      Multiples reads (bits.foldl (Rungs.bit a24 x) rungs) base
        (Scalar.climbed bits n) := by
    induction bits generalizing rungs n with
    | nil => exact multiples
    | cons bit bits ih =>
      exact ih _ _ (multiples.bit reading constant bit)
  rw [ExactLadder.ladder_eq]
  exact (run _ _ reading.multiples_start).lower

end ModularLadder.ExactLadder
