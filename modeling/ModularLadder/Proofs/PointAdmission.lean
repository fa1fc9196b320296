import Mathlib
import ModularLadder.Proofs.Ed25519.Point
import ModularLadder.Proofs.Ed448.Point

/-!
# Which affine coordinates make points

A point of an Edwards curve is made of two strings.  They have to be canonical
before anything is computed with them: of the proper length, and with numbers
below the modulus.  Only then the equation of the curve decides.  A point that
is made is written by the same two strings again.

The equation is computed on limbs that are not reduced, or in Montgomery form
with a coefficient that was encoded before.  Neither shows: for numbers below
the modulus the comparison is the equation between their residues.
-/

namespace ModularLadder

open Bytes (bigEndianValue ofNatBigEndian)
open EdwardsCurve (Solves)

/-- Two strings of the given length with numbers below the modulus. -/
def CanonicalPair (length modulus : Nat) (x y : Bytes) : Prop :=
  x.length = length ∧ y.length = length ∧
    bigEndianValue x < modulus ∧ bigEndianValue y < modulus

instance
    (length modulus : Nat)
    (x y : Bytes) :
    Decidable (CanonicalPair length modulus x y) :=
  inferInstanceAs (Decidable (_ ∧ _))

/--
How making a point of two strings may end, by whether they are canonical and
by whether their numbers solve the equation of the curve.
-/
structure IsAdmission
    {Point : Type}
    (outcome : Except Failure Point)
    (write : Point → Except Failure (Bytes × Bytes))
    (x y : Bytes)
    (canonical solves : Prop) :
    Prop where
  value_iff : outcome = .error .value ↔ ¬canonical
  pointNotOnCurve_iff :
    outcome = .error .pointNotOnCurve ↔ canonical ∧ ¬solves
  /-- The point is written by the strings that it was made of. -/
  ok_iff :
    (∃ point, outcome = .ok point ∧ write point = .ok (x, y)) ↔
      canonical ∧ solves

/-- The three ways to end exclude each other. -/
theorem isAdmission_of_eq
    {Point : Type}
    {outcome : Except Failure Point}
    {write : Point → Except Failure (Bytes × Bytes)}
    {x y : Bytes}
    {canonical solves : Prop}
    [Decidable canonical]
    [Decidable solves]
    {point : Point}
    (outcome_eq :
      outcome =
        if canonical then
          if solves then .ok point else .error .pointNotOnCurve
        else
          .error .value)
    (written : canonical → solves → write point = .ok (x, y)) :
    IsAdmission outcome write x y canonical solves := by
  rw [outcome_eq]
  by_cases accepted : canonical
  · by_cases onCurve : solves
    · have again := written accepted onCurve
      constructor <;> simp [accepted, onCurve, again]
    · constructor <;> simp [accepted, onCurve]
  · constructor <;> simp [accepted]

/-- The residues of canonical strings are written by the strings. -/
theorem CanonicalPair.written
    {length modulus : Nat}
    {x y : Bytes}
    (canonical : CanonicalPair length modulus x y) :
    (ofNatBigEndian length (bigEndianValue x : ZMod modulus).val,
        ofNatBigEndian length (bigEndianValue y : ZMod modulus).val) =
      (x, y) := by
  rcases canonical with ⟨xLength, yLength, xLess, yLess⟩
  have xWritten := Bytes.ofNatBigEndian_bigEndianValue x
  have yWritten := Bytes.ofNatBigEndian_bigEndianValue y
  rw [xLength] at xWritten
  rw [yLength] at yWritten
  rw [ZMod.val_natCast_of_lt xLess, ZMod.val_natCast_of_lt yLess, xWritten,
    yWritten]

namespace Ed25519.Point

open Field25519 (Element Residue prime)

/-- Canonical coordinates on the curve are written as they were read. -/
theorem toBytes_ofAffine
    {x y : Bytes}
    (canonical : CanonicalPair Element.byteLength prime x y)
    (solves :
      Solves (-1) coefficient (bigEndianValue x : Residue)
        (bigEndianValue y : Residue)) :
    (ofAffine (Element.ofBigEndian x) (Element.ofBigEndian y)).toBytes =
      (x, y) := by
  let P : curve.Point :=
    { x := bigEndianValue x
      y := bigEndianValue y
      solves := solves }
  have stands :
      (ofAffine (Element.ofBigEndian x) (Element.ofBigEndian y)).Stands P :=
    stands_ofBigEndian canonical.2.2.1 canonical.2.2.2 rfl rfl
  exact stands.toBytes_eq.trans canonical.written

theorem ofBytes_isAdmission
    (x y : Bytes) :
    IsAdmission (ofBytes x y) (fun point => .ok point.toBytes) x y
      (CanonicalPair Element.byteLength prime x y)
      (Solves (-1) coefficient (bigEndianValue x : Residue)
        (bigEndianValue y : Residue)) :=
  isAdmission_of_eq (ofBytes_eq x y) fun canonical solves =>
    congrArg Except.ok (toBytes_ofAffine canonical solves)

end Ed25519.Point

namespace Ed448.Point

open Field448 (Residue prime)

variable
  {context : CurveContext}
  (sound : context.Sound)

include sound

/-- Canonical coordinates on the curve are written as they were read. -/
theorem toBytes_ofAffine
    {x y : Bytes}
    (canonical : CanonicalPair Field448.byteLength prime x y)
    (solves :
      Solves 1 coefficient (bigEndianValue x : Residue)
        (bigEndianValue y : Residue)) :
    (ofAffine context x y).toBytes = .ok (x, y) := by
  let P : CurvePoint :=
    { x := bigEndianValue x
      y := bigEndianValue y
      solves := solves }
  have stands : (ofAffine context x y).Stands context P :=
    stands_ofAffine sound canonical.2.2.1 canonical.2.2.2 rfl rfl
  exact (stands.toBytes_eq sound).trans (congrArg Except.ok canonical.written)

theorem ofBytes_isAdmission
    (x y : Bytes) :
    IsAdmission (ofBytes context x y) toBytes x y
      (CanonicalPair Field448.byteLength prime x y)
      (Solves 1 coefficient (bigEndianValue x : Residue)
        (bigEndianValue y : Residue)) :=
  isAdmission_of_eq (ofBytes_eq sound x y) (toBytes_ofAffine sound)

end Ed448.Point

/--
Affine coordinates make a point exactly if they are canonical and solve the
equation of the curve, on both Edwards curves.  Strings that are not canonical
are refused for their values, whatever the equation says of them, and only
canonical ones for not being on the curve.  What is accepted is written again
as it was.
-/
theorem points_made_of_solutions :
    (∀ x y : Bytes,
      IsAdmission (Ed25519.Point.ofBytes x y)
        (fun point => .ok point.toBytes) x y
        (CanonicalPair Field25519.Element.byteLength Field25519.prime x y)
        (Solves (-1) Ed25519.coefficient
          (bigEndianValue x : Field25519.Residue)
          (bigEndianValue y : Field25519.Residue))) ∧
    ∀ identity, ∃ context,
      Ed448.CurveContext.ofIdentity identity = .ok context ∧
        ∀ x y : Bytes,
          IsAdmission (Ed448.Point.ofBytes context x y) Ed448.Point.toBytes
            x y
            (CanonicalPair Field448.byteLength Field448.prime x y)
            (Solves 1 Ed448.coefficient
              (bigEndianValue x : Field448.Residue)
              (bigEndianValue y : Field448.Residue)) := by
  constructor
  · exact Ed25519.Point.ofBytes_isAdmission
  · intro identity
    rcases Ed448.CurveContext.exists_ofIdentity identity with
      ⟨context, made, sound⟩
    exact ⟨context, made, Ed448.Point.ofBytes_isAdmission sound⟩

end ModularLadder
