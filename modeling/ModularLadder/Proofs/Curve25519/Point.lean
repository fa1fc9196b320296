import Mathlib
import ModularLadder.Curve25519.Point
import ModularLadder.Proofs.Curve25519.Ladder
import ModularLadder.Proofs.Field25519.Inverse
import ModularLadder.Proofs.Field25519.Prime
import ModularLadder.Proofs.MontgomeryCurve
import ModularLadder.Proofs.Scalar

/-!
# Points on Curve25519 in the group of the curve

Every residue is the x-coordinate of a point of the curve over some field that
contains the residues: the residues themselves, or the field of the quadratic
twist.  A point in projective coordinates stands for the points of the group
with its x-coordinate.

Multiplication by a scalar follows the group, whatever the field.  The ladder
does for every base but the one of order two, and for that one the multiples
put in place are those of the group.
-/

namespace ModularLadder.Curve25519

open Field25519 (Element Residue prime)
open MontgomeryCurve (Smooth Represents curve)

section

variable
  {K : Type*}
  [Field K]
  [Algebra Residue K]

variable (K) in
/-- The curve has no singular point over any field that has the residues. -/
theorem smooth_coefficient :
    Smooth (486662 : K) := by
  have odd : ¬prime ∣ 2 := by
    decide
  have coprime : ¬prime ∣ 486662 ^ 2 - 4 := by
    decide
  have smooth :=
    MontgomeryCurve.smooth_natCast (K := K) prime odd (by decide) coprime
  exact_mod_cast smooth

/-- The point of the group with the coordinates of a solution. -/
def pointAbove
    {x y : K}
    (equation : y ^ 2 = x ^ 3 + 486662 * x ^ 2 + x) :
    (curve (486662 : K)).Point :=
  .some x y ((smooth_coefficient K).nonsingular equation)

/-! ## Points that stand for points of the curve -/

/-- The residue of an element in the field. -/
def embed (x : Element) : K :=
  algebraMap Residue K x.residue

/-- A point of reduced coordinates that represent a point of the group. -/
structure Point.Stands
    (point : Point)
    (P : (curve (486662 : K)).Point) :
    Prop where
  x_reduced : point.x.Reduced
  z_reduced : point.z.Reduced
  represents : Represents (embed point.x) (embed point.z) P

namespace Point

theorem isInfinity_eq
    (point : Point) :
    point.isInfinity = decide (point.z.residue = 0) := by
  simp [isInfinity]

variable
  {point : Point}
  {P : (curve (486662 : K)).Point}

theorem Stands.isInfinity_iff
    (stands : point.Stands P) :
    point.isInfinity = true ↔ P = 0 := by
  rw [isInfinity_eq, decide_eq_true_eq, stands.represents.eq_zero_iff, embed,
    map_eq_zero]

/-- The point at infinity stays at infinity. -/
theorem scale_of_isInfinity
    (infinite : point.isInfinity = true)
    (scalar : Bytes) :
    point.scale scalar = point := by
  rw [scale, if_pos infinite]

/-- The affine x-coordinate is a quotient, in which the inverse of zero is zero. -/
theorem Stands.affine_quotient
    (stands : point.Stands P) :
    point.affine.Nominal ∧
      point.affine.residue = point.x.residue * point.z.residue⁻¹ := by
  have inverse := Element.inverse_computes stands.z_reduced.loose
  have affine := Element.mul_computes stands.x_reduced.loose inverse.loose
  have residue := affine.residue_eq
  rw [inverse.residue_eq, Field25519.pow_prime_sub_two] at residue
  exact ⟨affine.nominal, residue⟩

/-- The affine x-coordinate of a finite point. -/
theorem Stands.affine
    {x y : K}
    {h : (curve (486662 : K)).Nonsingular x y}
    (stands : point.Stands (.some x y h)) :
    point.affine.Nominal ∧ embed point.affine = x := by
  rcases stands.represents with ⟨numerator, denominator⟩
  rcases stands.affine_quotient with ⟨nominal, residue⟩
  refine ⟨nominal, ?_⟩
  rw [embed, residue, map_mul, map_inv₀]
  show embed point.x * (embed point.z)⁻¹ = x
  rw [numerator, mul_inv_cancel_right₀ denominator]

/-- Coordinates are chosen by truth values. -/
@[simp]
theorem repairOrderTwo_ofBool
    (orderTwo odd : Bool)
    (point : Point) :
    point.repairOrderTwo (Choice.ofBool orderTwo) (Choice.ofBool odd) =
      if orderTwo then
        if odd then { x := Element.zero, z := Element.one } else infinity
      else
        point := by
  rw [repairOrderTwo, Choice.not_ofBool, Choice.and_ofBool,
    Choice.and_ofBool]
  simp only [Element.assignIf_ofBool]
  cases orderTwo <;> cases odd <;> rfl

theorem stands_infinity :
    infinity.Stands (0 : (curve (486662 : K)).Point) := by
  refine ⟨Element.reduced_one, Element.reduced_zero, ?_, ?_⟩
  · simp [infinity, embed]
  · simp [infinity, embed]

theorem Stands.normalizeInfinity
    (stands : point.Stands P) :
    point.normalizeInfinity.Stands P := by
  rw [Point.normalizeInfinity, Element.isZero_eq, Element.assignIf_ofBool]
  by_cases infinite : point.z.residue = 0
  · have zero : P = 0 := by
      rw [← stands.isInfinity_iff, isInfinity_eq]
      exact decide_eq_true infinite
    rw [if_pos (decide_eq_true infinite), zero]
    refine ⟨Element.reduced_one, stands.z_reduced, ?_, ?_⟩
    · simp [embed]
    · show algebraMap Residue K point.z.residue = 0
      rw [infinite, map_zero]
  · rw [if_neg (by rw [decide_eq_true_eq]; exact infinite)]
    exact stands

/-! ## Reading and writing -/

/-- A finite point is written by its affine x-coordinate. -/
theorem Stands.toBytes_eq
    {x y : K}
    {h : (curve (486662 : K)).Nonsingular x y}
    (stands : point.Stands (.some x y h)) :
    ∃ residue : Residue,
      algebraMap Residue K residue = x ∧
        point.toBytes = .ok (Bytes.ofNatBigEndian 32 residue.val) := by
  have finite : ¬point.isInfinity = true := by
    rw [stands.isInfinity_iff]
    exact WeierstrassCurve.Affine.Point.some_ne_zero h
  refine ⟨point.affine.residue, stands.affine.2, ?_⟩
  rw [toBytes, if_neg finite, Element.toBigEndian_eq]

/-- Which x-coordinates are accepted. -/
theorem ofBytes_eq
    (bytes : Bytes) :
    ofBytes bytes =
      if bytes.length = 32 ∧ bytes.bigEndianValue < prime then
        .ok { x := Element.ofBigEndian bytes, z := Element.one }
      else
        .error .value := by
  rw [ofBytes, Element.byteLength]
  by_cases length : bytes.length = 32
  · rw [if_pos length, Element.ofCanonical?_eq bytes length]
    by_cases less : bytes.bigEndianValue < prime
    · rw [if_pos less, if_pos ⟨length, less⟩]
    · rw [if_neg less, if_neg fun canonical => less canonical.2]
  · rw [if_neg length, if_neg fun canonical => length canonical.1]

/-- A canonical string makes every point with its x-coordinate. -/
theorem ofBytes_stands
    {bytes : Bytes}
    {y : K}
    (length : bytes.length = 32)
    (less : bytes.bigEndianValue < prime)
    (h : (curve (486662 : K)).Nonsingular (bytes.bigEndianValue : K) y) :
    ∃ point, ofBytes bytes = .ok point ∧ point.Stands (.some _ y h) := by
  have residue : (Element.ofBigEndian bytes).residue =
      (bytes.bigEndianValue : Residue) := by
    rw [← Element.val_residue_ofBigEndian less, ZMod.natCast_val,
      ZMod.cast_id]
  refine ⟨{ x := Element.ofBigEndian bytes, z := Element.one }, ?_, ?_⟩
  · rw [ofBytes_eq, if_pos ⟨length, less⟩]
  · refine ⟨?_, Element.reduced_one, ?_, ?_⟩
    · exact (Element.nominal_ofLittleEndian bytes.reverse).reduced
    · simp [embed, residue]
    · simp [embed]

/-- A written residue makes every point that has it as x-coordinate. -/
theorem ofResidue_stands
    {x : Residue}
    {y : K}
    (h : (curve (486662 : K)).Nonsingular (algebraMap Residue K x) y) :
    ∃ point,
      ofBytes (Bytes.ofNatBigEndian 32 x.val) = .ok point ∧
        point.Stands (.some _ y h) := by
  let bytes := Bytes.ofNatBigEndian 32 x.val
  have number : bytes.bigEndianValue = x.val := by
    simp [bytes]
  have less : bytes.bigEndianValue < prime := by
    rw [number]
    exact ZMod.val_lt x
  have coordinate : (bytes.bigEndianValue : K) = algebraMap Residue K x := by
    rw [number, ← map_natCast (algebraMap Residue K), ZMod.natCast_zmod_val]
  revert h
  rw [← coordinate]
  exact ofBytes_stands (by simp [bytes]) less

/-! ## Multiples -/

section

variable
  [DecidableEq K]

/-- What the ladder finds for a base that is not of order two. -/
theorem ladder_stands
    {x1 : Element}
    {x y : K}
    {h : (curve (486662 : K)).Nonsingular x y}
    (base : x1.Reduced)
    (coordinate : embed x1 = x)
    (nonzero : x ≠ 0)
    (scalar : Bytes) :
    Stands
      { x := (ladder x1 (Scalar.bits scalar)).x2
        z := (ladder x1 (Scalar.bits scalar)).z2 }
      (scalar.bigEndianValue • WeierstrassCurve.Affine.Point.some x y h) := by
  rcases Scalar.exists_bits scalar with ⟨bits, bits_eq, climbed_eq⟩
  rcases ladder_exact base bits with ⟨-, reduced, residues⟩
  have image := congrArg (ExactLadder.Rungs.map (algebraMap Residue K)) residues
  rw [ExactLadder.map_ladder, map_ofNat] at image
  change _ = ExactLadder.ladder 121665 (embed x1) _ at image
  rw [coordinate] at image
  have constant : 4 * (121665 : K) = 486662 - 2 := by
    norm_num
  have represents :=
    MontgomeryCurve.ladder_represents (h := h) (smooth_coefficient K) constant
      nonzero bits
  rw [climbed_eq, ← image, ← bits_eq] at represents
  rw [← bits_eq] at reduced
  exact ⟨reduced.x2, reduced.z2, represents⟩

/-- Multiplication by a scalar follows the group. -/
theorem Stands.scale
    {P : (curve (486662 : K)).Point}
    (stands : point.Stands P)
    (scalar : Bytes) :
    (point.scale scalar).Stands (scalar.bigEndianValue • P) := by
  by_cases infinite : point.isInfinity = true
  · have zero := stands.isInfinity_iff.1 infinite
    rw [scale_of_isInfinity infinite, zero, nsmul_zero, ← zero]
    exact stands
  · cases P with
    | zero =>
      exact absurd (stands.isInfinity_iff.2 rfl) infinite
    | some x y h =>
      rcases stands.affine with ⟨nominal, coordinate⟩
      have orderTwo : point.affine.residue = 0 ↔ x = 0 := by
        rw [← coordinate, embed, map_eq_zero]
      rw [Point.scale, if_neg infinite]
      apply Stands.normalizeInfinity
      rw [Element.isZero_eq, Scalar.isOdd_eq, repairOrderTwo_ofBool]
      by_cases zero : x = 0
      · rw [if_pos (decide_eq_true (orderTwo.2 zero))]
        subst zero
        rw [MontgomeryCurve.nsmul_of_order_two]
        by_cases odd : scalar.bigEndianValue % 2 = 1
        · rw [if_pos (decide_eq_true odd), if_pos odd]
          refine ⟨Element.reduced_zero, Element.reduced_one, ?_, ?_⟩
          · simp [embed]
          · simp [embed]
        · rw [if_neg (by rw [decide_eq_true_eq]; exact odd), if_neg odd]
          exact stands_infinity
      · have other : ¬decide (point.affine.residue = 0) = true := by
          rw [decide_eq_true_eq, orderTwo]
          exact zero
        rw [if_neg other]
        exact ladder_stands nominal.reduced coordinate zero scalar

/-- Scalars that follow each other multiply by their product. -/
theorem Stands.scaleAll
    {P : (curve (486662 : K)).Point}
    (stands : point.Stands P)
    (scalars : List Bytes) :
    (scalars.foldl Point.scale point).Stands
      ((scalars.map Bytes.bigEndianValue).prod • P) := by
  induction scalars generalizing point P with
  | nil =>
    rw [List.map_nil, List.prod_nil, one_nsmul]
    exact stands
  | cons scalar scalars ih =>
    rw [List.map_cons, List.prod_cons, mul_nsmul]
    exact ih (stands.scale scalar)

/--
Multiplication by any scalars one after the other is that of the group, over
any field that has a point with the given x-coordinate.  The result is at
infinity exactly if the multiple is, and stays there; otherwise it is written
as the least number with the x-coordinate of the multiple.
-/
theorem scaleAll_exact
    (bytes : Bytes)
    (length : bytes.length = 32)
    (less : bytes.bigEndianValue < prime)
    (y : K)
    (equation : y ^ 2 =
      (bytes.bigEndianValue : K) ^ 3 +
        486662 * (bytes.bigEndianValue : K) ^ 2 +
        (bytes.bigEndianValue : K)) :
    ∃ start, ofBytes bytes = .ok start ∧
      ∀ scalars : List Bytes,
        let multiple := scalars.foldl Point.scale start
        let product := (scalars.map Bytes.bigEndianValue).prod
        (multiple.isInfinity = true ↔ product • pointAbove equation = 0) ∧
          (∀ x' y' h', product • pointAbove equation = .some x' y' h' →
            ∃ residue : Residue,
              algebraMap Residue K residue = x' ∧
                multiple.toBytes =
                  .ok (Bytes.ofNatBigEndian 32 residue.val)) ∧
          (multiple.isInfinity = true →
            ∀ scalar, multiple.scale scalar = multiple) := by
  rcases
      ofBytes_stands length less ((smooth_coefficient K).nonsingular equation) with
    ⟨start, made, stands⟩
  refine ⟨start, made, ?_⟩
  intro scalars multiple product
  have multiplied := stands.scaleAll scalars
  refine ⟨multiplied.isInfinity_iff, ?_, ?_⟩
  · intro x' y' h' finite
    change multiple.Stands (product • pointAbove equation) at multiplied
    rw [finite] at multiplied
    exact multiplied.toBytes_eq
  · intro infinite scalar
    exact scale_of_isInfinity infinite scalar

end

end Point

end

/-! ## The base point -/

/-- The x-coordinate of the base point, as it is read. -/
def baseBytes : Bytes :=
  List.replicate 31 0 ++ [9]

/-- The y-coordinate of the base point. -/
def baseOrdinate : Residue :=
  (14781619447589544791020593568409986887264606134616475288964881837755586237401 :
    Nat)

theorem baseOrdinate_square :
    baseOrdinate ^ 2 =
      (baseBytes.bigEndianValue : Residue) ^ 3 +
        486662 * (baseBytes.bigEndianValue : Residue) ^ 2 +
        (baseBytes.bigEndianValue : Residue) := by
  have abscissa : baseBytes.bigEndianValue = 9 := by
    decide
  rw [abscissa, baseOrdinate, ← Nat.cast_pow]
  have remainders :
      ((14781619447589544791020593568409986887264606134616475288964881837755586237401 ^
          2 : Nat) : Residue) = ((9 ^ 3 + 486662 * 9 ^ 2 + 9 : Nat) : Residue) :=
    (ZMod.natCast_eq_natCast_iff' _ _ _).2 (by decide)
  rw [remainders]
  norm_num

namespace Point

/-- The multiples of the base point, by its solution modulo `p`. -/
theorem scaleAll_exact_nine :
    baseBytes.length = 32 ∧
      baseBytes.bigEndianValue < prime ∧
      ∃ start, ofBytes baseBytes = .ok start ∧
        ∀ scalars : List Bytes,
          let multiple := scalars.foldl Point.scale start
          let product := (scalars.map Bytes.bigEndianValue).prod
          (multiple.isInfinity = true ↔
              product • pointAbove baseOrdinate_square = 0) ∧
            (∀ x' y' h',
              product • pointAbove baseOrdinate_square = .some x' y' h' →
                ∃ residue : Residue,
                  algebraMap Residue Residue residue = x' ∧
                    multiple.toBytes =
                      .ok (Bytes.ofNatBigEndian 32 residue.val)) ∧
            (multiple.isInfinity = true →
              ∀ scalar, multiple.scale scalar = multiple) :=
  ⟨rfl, by decide,
    scaleAll_exact baseBytes rfl (by decide) baseOrdinate
      baseOrdinate_square⟩

end Point

end ModularLadder.Curve25519
