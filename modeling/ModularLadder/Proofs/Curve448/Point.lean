import Mathlib
import ModularLadder.Curve448.Point
import ModularLadder.Proofs.Curve448.Ladder
import ModularLadder.Proofs.Scalar
import ModularLadder.Proofs.SharedCoordinate

/-!
# Points on Curve448 in the group of the curve

Every residue is the x-coordinate of a point of the curve over some field that
contains the residues: the residues themselves, or the field of the quadratic
twist.  Coordinates stand for the points of the group with their ratio as
x-coordinate, and for the point at infinity if the denominator is zero.

Multiplication by a scalar follows the group, whatever the field and whatever
an earlier multiplication has left among the temporaries.  The ladder does for
every base but the one of order two, and for that one the multiples put in
place are those of the group.
-/

namespace ModularLadder.Curve448

open Bytes (bigEndianValue ofNatBigEndian)
open Field448 (IsForm Residue Room prime residue)
open Montgomery (Context ScratchM)
open MontgomeryCurve (Smooth Represents coordinate curve)

section

variable
  {K : Type*}
  [Field K]
  [Algebra Residue K]

variable (K) in
/-- The curve has no singular point over any field that has the residues. -/
theorem smooth_coefficient :
    Smooth (156326 : K) := by
  have odd : ¬prime ∣ 2 := by
    decide
  have coprime : ¬prime ∣ 156326 ^ 2 - 4 := by
    decide
  have smooth :=
    MontgomeryCurve.smooth_natCast (K := K) prime odd (by decide) coprime
  exact_mod_cast smooth

variable (K) in
/-- The points of the curve over the field. -/
abbrev CurvePoint : Type _ :=
  (curve (156326 : K)).Point

/-- The point of the group with the coordinates of a solution. -/
def pointAbove
    {x y : K}
    (equation : y ^ 2 = x ^ 3 + 156326 * x ^ 2 + x) :
    CurvePoint K :=
  .some x y ((smooth_coefficient K).nonsingular equation)

/-! ## Coordinates that stand for points -/

/-- A fraction of residues that represents a point of the group. -/
def Fraction (x z : Residue) (P : CurvePoint K) : Prop :=
  Represents (algebraMap Residue K x) (algebraMap Residue K z) P

/-- Coordinates whose residues represent a point of the group. -/
def Coordinates.Stands
    (coordinates : Coordinates)
    (P : CurvePoint K) :
    Prop :=
  ∃ x z, coordinates.Forms x z ∧ Fraction x z P

/-- A point under a context that stands for a point of the group. -/
structure Point.Stands
    (context : CurveContext)
    (point : Point)
    (P : CurvePoint K) :
    Prop where
  curve_eq : point.curve = context
  coordinates : point.coordinates.Stands P
  room : Workplace.room.holds point.workplace

variable
  {x z : Residue}
  {P : CurvePoint K}

theorem Fraction.eq_zero_iff
    (fraction : Fraction x z P) :
    P = 0 ↔ z = 0 := by
  rw [Represents.eq_zero_iff fraction, map_eq_zero]

/-- The ratio is the coordinate of the point, which is zero at infinity. -/
theorem Fraction.ratio
    (fraction : Fraction x z P) :
    algebraMap Residue K (x * z⁻¹) = coordinate P := by
  rw [map_mul, map_inv₀]
  exact Represents.quotient fraction

theorem fraction_affine
    {abscissa ordinate : K}
    {h : (curve (156326 : K)).Nonsingular abscissa ordinate}
    (coordinate : algebraMap Residue K x = abscissa) :
    Fraction x 1 (.some abscissa ordinate h) := by
  constructor
  · rw [coordinate, map_one, mul_one]
  · rw [map_one]
    exact one_ne_zero

theorem fraction_infinity :
    Fraction 1 0 (0 : CurvePoint K) := by
  constructor
  · rw [map_one]
    exact one_ne_zero
  · rw [map_zero]

/-- The point at infinity may be given the numerator one. -/
theorem Fraction.normalize
    (fraction : Fraction x z P) :
    Fraction (if z = 0 then 1 else x) z P := by
  by_cases infinite : z = 0
  · rw [if_pos infinite, infinite, fraction.eq_zero_iff.2 infinite]
    exact fraction_infinity
  · rw [if_neg infinite]
    exact fraction

/-- The outcome of the ladder for a base that is not of order two. -/
theorem ladder_fraction
    [DecidableEq K]
    {abscissa ordinate : K}
    {h : (curve (156326 : K)).Nonsingular abscissa ordinate}
    (coordinate : algebraMap Residue K x = abscissa)
    (nonzero : abscissa ≠ 0)
    (bits : List Bool) :
    Fraction (ExactLadder.ladder constant x bits).x2
      (ExactLadder.ladder constant x bits).z2
      (Scalar.climbed bits 0 •
        WeierstrassCurve.Affine.Point.some abscissa ordinate h) := by
  have image :=
    ExactLadder.map_ladder (algebraMap Residue K) constant x bits
  have slope : 4 * algebraMap Residue K constant = 156326 - 2 := by
    rw [constant, map_ofNat]
    norm_num
  have represents :=
    MontgomeryCurve.ladder_represents (h := h) (smooth_coefficient K) slope
      nonzero bits
  rw [coordinate] at image
  rw [← image] at represents
  exact represents

/-- The outcome with the multiples of the point of order two put in place. -/
theorem mended_fraction
    [DecidableEq K]
    {abscissa ordinate : K}
    {h : (curve (156326 : K)).Nonsingular abscissa ordinate}
    (coordinate : algebraMap Residue K x = abscissa)
    (bits : List Bool) :
    let number := Scalar.climbed bits 0
    let exact := ExactLadder.ladder constant x bits
    let orderTwo := decide (x = 0)
    let odd := decide (number % 2 = 1)
    Fraction
      (if orderTwo && !odd then 1 else if orderTwo && odd then 0 else exact.x2)
      (if orderTwo && !odd then 0 else if orderTwo && odd then 1 else exact.z2)
      (number • WeierstrassCurve.Affine.Point.some abscissa ordinate h) := by
  intro number exact orderTwo odd
  by_cases zero : x = 0
  · have order : orderTwo = true := decide_eq_true zero
    have origin : abscissa = 0 := by
      rw [← coordinate, zero, map_zero]
    subst origin
    rw [MontgomeryCurve.nsmul_of_order_two, order]
    by_cases isOdd : number % 2 = 1
    · have odd_eq : odd = true := decide_eq_true isOdd
      rw [odd_eq, if_pos isOdd]
      exact fraction_affine (map_zero _)
    · have odd_eq : odd = false := decide_eq_false isOdd
      rw [odd_eq, if_neg isOdd]
      exact fraction_infinity
  · have order : orderTwo = false := decide_eq_false zero
    have nonzero : abscissa ≠ 0 := by
      rw [← coordinate, map_ne_zero]
      exact zero
    rw [order]
    exact ladder_fraction coordinate nonzero bits

/-! ## Multiples of coordinates -/

namespace Point

variable
  {context : CurveContext}
  {point : Point}
  {coordinates : Coordinates}

section

variable
  {x z : Residue}

/-- Coordinates are exchanged for small ones under a condition. -/
theorem exchangeSmall_ensures
    {numerator denominator : Word}
    {u v : Residue}
    (first : Field448.Yields (context.field.encodeWord numerator) u)
    (second : Field448.Yields (context.field.encodeWord denominator) v)
    (forms : coordinates.Forms x z)
    (condition : Bool) :
    Workplace.room.Ensures
      (exchangeSmall context numerator denominator (Choice.ofBool condition)
        coordinates) fun after workplace =>
          after.Forms (if condition then u else x)
              (if condition then v else z) ∧
            Workplace.room.holds workplace := by
  refine first.bind fun e e_form => ?_
  refine second.bind fun f f_form => ?_
  rw [Field448.swapIf_ofBool forms.x_form.proper e_form.proper,
    Field448.swapIf_ofBool forms.z_form.proper f_form.proper]
  refine Room.Ensures.modify_bind Workplace.room (fun _ holds => holds) ?_
  apply Room.Ensures.pure
  intro workplace holds
  refine ⟨?_, holds⟩
  cases condition with
  | false => exact forms
  | true => exact ⟨e_form, f_form⟩

/-- The numerator of the point at infinity becomes one. -/
theorem normalizeInfinity_ensures
    (sound : context.Sound)
    (forms : coordinates.Forms x z) :
    Workplace.room.Ensures (normalizeInfinity context coordinates)
      fun after workplace =>
        after.Forms (if z = 0 then 1 else x) z ∧
          Workplace.room.holds workplace := by
  refine sound.encodes_one.bind fun e e_form => ?_
  rw [Field448.isZero_eq forms.z_form,
    Field448.swapIf_ofBool forms.x_form.proper e_form.proper]
  refine Room.Ensures.modify_bind Workplace.room (fun _ holds => holds) ?_
  apply Room.Ensures.pure
  intro workplace holds
  refine ⟨?_, holds⟩
  by_cases infinite : z = 0
  · rw [if_pos infinite, decide_eq_true infinite]
    exact ⟨e_form, forms.z_form⟩
  · rw [if_neg infinite, decide_eq_false infinite]
    exact forms

/-- The multiple of a finite point by a scalar, on its coordinates. -/
theorem scaleCoordinates_ensures
    [DecidableEq K]
    {abscissa ordinate : K}
    {h : (MontgomeryCurve.curve (156326 : K)).Nonsingular abscissa ordinate}
    (sound : context.Sound)
    (forms : coordinates.Forms x z)
    (fraction : Fraction x z (.some abscissa ordinate h))
    (scalar : Bytes) :
    Workplace.room.Ensures (scaleCoordinates context coordinates scalar)
      fun after workplace =>
        after.Stands
            (scalar.bigEndianValue •
              WeierstrassCurve.Affine.Point.some abscissa ordinate h) ∧
          Workplace.room.holds workplace := by
  have made := sound.made
  rcases Scalar.exists_bits scalar with ⟨bits, bits_eq, climbed_eq⟩
  rw [scaleCoordinates, bits_eq, Scalar.isOdd_eq]
  refine (Field448.inverse_yields made forms.z_form).bind fun _ inverse => ?_
  refine
    (Field448.multiply_yields made forms.x_form inverse).bind
      fun x1 x1_form => ?_
  refine
    Room.Ensures.modify_bind (Workplace.withBase (x * z⁻¹))
      (fun _ holds => ⟨holds.1, x1_form, trivial, trivial⟩) ?_
  refine Room.Ensures.bind _ (sound.ladder bits) fun climbed climbedForms => ?_
  simp only [Field448.isZero_eq x1_form, Choice.not_ofBool, Choice.and_ofBool]
  refine
    Room.Ensures.bind _
      (exchangeSmall_ensures sound.encodes_zero sound.encodes_one climbedForms
        _)
      fun _ oddForms => ?_
  refine
    Room.Ensures.bind _
      (exchangeSmall_ensures sound.encodes_one sound.encodes_zero oddForms _)
      fun _ mendedForms => ?_
  refine (normalizeInfinity_ensures sound mendedForms).mono ?_
  rintro after workplace ⟨afterForms, holds⟩
  have mended := mended_fraction (h := h) fraction.ratio bits
  rw [climbed_eq] at mended
  exact ⟨⟨_, _, afterForms, mended.normalize⟩, holds⟩

end

/-! ## Reading and writing -/

variable
  {P : CurvePoint K}

theorem Stands.isInfinity_iff
    (stands : point.Stands context P) :
    point.isInfinity = true ↔ P = 0 := by
  rcases stands.coordinates with ⟨x, z, forms, fraction⟩
  rw [isInfinity, Field448.isZero_eq forms.z_form, Choice.isSet_ofBool,
    decide_eq_true_eq, fraction.eq_zero_iff]

/-- The point at infinity stays at infinity. -/
theorem scale_of_isInfinity
    (infinite : point.isInfinity = true)
    (scalar : Bytes) :
    point.scale scalar = point := by
  rw [scale, if_pos infinite]

/-- The affine x-coordinate of a point in Montgomery form. -/
def affine (field : Context) (coordinates : Coordinates) : ScratchM Words := do
  let inverse ← field.inverse coordinates.z
  field.multiply coordinates.x inverse

section

variable
  (sound : context.Sound)

include sound

/-- What is not at infinity is written by the quotient of its coordinates. -/
theorem toBytes_eq_quotient
    {x z : Residue}
    (curve_eq : point.curve = context)
    (forms : point.coordinates.Forms x z)
    (finite : ¬point.isInfinity = true) :
    point.toBytes =
      .ok (ofNatBigEndian Field448.byteLength (x * z⁻¹).val) := by
  have made := sound.made
  have quotient :
      Field448.Yields (affine context.field point.coordinates) (x * z⁻¹) := by
    apply ScratchM.Ensures.bind (Field448.inverse_yields made forms.z_form)
    intro _ inverse
    exact Field448.multiply_yields made forms.x_form inverse
  have form := quotient.evaluate
  rw [← Field448.width_eq made] at form
  rw [toBytes, if_neg finite, curve_eq]
  exact Field448.encode_form_eq made form

/-- A finite point is written by its x-coordinate. -/
theorem Stands.toBytes_eq
    {abscissa ordinate : K}
    {h : (MontgomeryCurve.curve (156326 : K)).Nonsingular abscissa ordinate}
    (stands : point.Stands context (.some abscissa ordinate h)) :
    ∃ u : Residue,
      algebraMap Residue K u = abscissa ∧
        point.toBytes = .ok (ofNatBigEndian Field448.byteLength u.val) := by
  have finite : ¬point.isInfinity = true := by
    rw [stands.isInfinity_iff]
    exact WeierstrassCurve.Affine.Point.some_ne_zero h
  rcases stands.coordinates with ⟨x, z, forms, fraction⟩
  exact
    ⟨x * z⁻¹, fraction.ratio,
      toBytes_eq_quotient sound stands.curve_eq forms finite⟩

/-- Coordinates with fresh temporaries. -/
theorem stands_ofCoordinates
    (stands : coordinates.Stands P) :
    (ofCoordinates context coordinates).Stands context P :=
  ⟨rfl, stands, Field448.fits_ofWidth sound.made, trivial, trivial, trivial⟩

/-- Which x-coordinates are accepted. -/
theorem ofBytes_eq
    (bytes : Bytes) :
    ofBytes context bytes =
      if bytes.length = Field448.byteLength ∧ bigEndianValue bytes < prime then
        .ok
          (ofCoordinates context
            { x := context.field.encoded bytes, z := context.field.ofWord 1 })
      else
        .error .value := by
  rw [ofBytes]
  by_cases length : bytes.length = Field448.byteLength
  · rw [if_neg (not_ne_iff.2 length), Field448.encode_eq sound.made length]
    by_cases less : bigEndianValue bytes < prime
    · rw [if_pos less, if_pos ⟨length, less⟩]
      rfl
    · rw [if_neg less, if_neg fun canonical => less canonical.2]
      rfl
  · rw [if_pos length, if_neg fun canonical => length canonical.1]
    rfl

/-- A canonical string makes every point with its x-coordinate. -/
theorem ofBytes_stands
    {bytes : Bytes}
    {ordinate : K}
    (length : bytes.length = Field448.byteLength)
    (less : bigEndianValue bytes < prime)
    (h :
      (MontgomeryCurve.curve (156326 : K)).Nonsingular
        (bigEndianValue bytes : K) ordinate) :
    ∃ point,
      ofBytes context bytes = .ok point ∧
        point.Stands context (.some _ ordinate h) := by
  have x_form := Field448.isForm_encoded sound.made bytes less
  have z_form := Field448.isForm_ofWord_one sound.made
  refine ⟨_, by rw [ofBytes_eq sound, if_pos ⟨length, less⟩], ?_⟩
  apply stands_ofCoordinates sound
  exact ⟨_, _, ⟨x_form, z_form⟩, fraction_affine (map_natCast _ _)⟩

/-- A written residue makes every point that has it as x-coordinate. -/
theorem ofResidue_stands
    {x : Residue}
    {ordinate : K}
    (h :
      (MontgomeryCurve.curve (156326 : K)).Nonsingular
        (algebraMap Residue K x) ordinate) :
    ∃ point,
      ofBytes context (ofNatBigEndian Field448.byteLength x.val) = .ok point ∧
        point.Stands context (.some _ ordinate h) := by
  let bytes := ofNatBigEndian Field448.byteLength x.val
  have number : bigEndianValue bytes = x.val := by
    simp [bytes]
  have less : bigEndianValue bytes < prime := by
    rw [number]
    exact ZMod.val_lt x
  have coordinate : (bigEndianValue bytes : K) = algebraMap Residue K x := by
    rw [number, ← map_natCast (algebraMap Residue K), ZMod.natCast_zmod_val]
  revert h
  rw [← coordinate]
  exact ofBytes_stands sound (by simp [bytes]) less

/-! ## Multiples of points -/

variable
  [DecidableEq K]

/-- Multiplication by a scalar follows the group. -/
theorem Stands.scale
    (stands : point.Stands context P)
    (scalar : Bytes) :
    (point.scale scalar).Stands context (scalar.bigEndianValue • P) := by
  by_cases infinite : point.isInfinity = true
  · have zero := stands.isInfinity_iff.1 infinite
    rw [scale_of_isInfinity infinite, zero, nsmul_zero, ← zero]
    exact stands
  · cases P with
    | zero =>
      exact absurd (stands.isInfinity_iff.2 rfl) infinite
    | some abscissa ordinate h =>
      rcases stands.coordinates with ⟨x, z, forms, fraction⟩
      rcases
          scaleCoordinates_ensures sound forms fraction scalar
            point.workplace stands.room with
        ⟨coordinates, room⟩
      rw [Point.scale, if_neg infinite, stands.curve_eq]
      exact ⟨rfl, coordinates, room⟩

/-- Scalars that follow each other multiply by their product. -/
theorem Stands.scaleAll
    (stands : point.Stands context P)
    (scalars : List Bytes) :
    (scalars.foldl Point.scale point).Stands context
      ((scalars.map bigEndianValue).prod • P) := by
  induction scalars generalizing point P with
  | nil =>
    rw [List.map_nil, List.prod_nil, one_nsmul]
    exact stands
  | cons scalar scalars ih =>
    rw [List.map_cons, List.prod_cons, mul_nsmul]
    exact ih (stands.scale sound scalar)

end

/--
Multiplication by any scalars one after the other is that of the group, over
any field that has a point with the given x-coordinate.  The result is at
infinity exactly if the multiple is, and stays there; otherwise it is written
as the least number with the x-coordinate of the multiple.
-/
theorem scaleAll_follows_group
    [DecidableEq K]
    {identity : Nat}
    (made : CurveContext.ofIdentity identity = .ok context)
    (bytes : Bytes)
    (length : bytes.length = Field448.byteLength)
    (less : bigEndianValue bytes < prime)
    (y : K)
    (equation : y ^ 2 =
      (bigEndianValue bytes : K) ^ 3 +
        156326 * (bigEndianValue bytes : K) ^ 2 +
        (bigEndianValue bytes : K)) :
    ∃ start, ofBytes context bytes = .ok start ∧
      ∀ scalars : List Bytes,
        let multiple := scalars.foldl Point.scale start
        let product := (scalars.map bigEndianValue).prod
        (multiple.isInfinity = true ↔ product • pointAbove equation = 0) ∧
          (∀ x' y' h', product • pointAbove equation = .some x' y' h' →
            ∃ u : Residue,
              algebraMap Residue K u = x' ∧
                multiple.toBytes =
                  .ok (ofNatBigEndian Field448.byteLength u.val)) ∧
          (multiple.isInfinity = true →
            ∀ scalar, multiple.scale scalar = multiple) := by
  have sound := CurveContext.sound_of_ofIdentity made
  rcases
      ofBytes_stands sound length less
        ((smooth_coefficient K).nonsingular equation) with
    ⟨start, accepted, stands⟩
  refine ⟨start, accepted, ?_⟩
  intro scalars multiple product
  have multiplied := stands.scaleAll sound scalars
  refine ⟨multiplied.isInfinity_iff, ?_, ?_⟩
  · intro x' y' h' finite
    change multiple.Stands context (product • pointAbove equation)
      at multiplied
    rw [finite] at multiplied
    exact multiplied.toBytes_eq sound
  · intro infinite scalar
    exact scale_of_isInfinity infinite scalar

end Point

end

/-! ## The base point -/

/-- The x-coordinate of the base point, as it is read. -/
def baseBytes : Bytes :=
  List.replicate 55 0 ++ [5]

/-- The y-coordinate of the base point. -/
def baseOrdinate : Residue :=
  (355293926785568175264127502063783334808976399387714271831880898435169088786967410002932673765864550910142774147268105838985595290606362 :
    Nat)

theorem baseOrdinate_square :
    baseOrdinate ^ 2 =
      (bigEndianValue baseBytes : Residue) ^ 3 +
        156326 * (bigEndianValue baseBytes : Residue) ^ 2 +
        (bigEndianValue baseBytes : Residue) := by
  have abscissa : bigEndianValue baseBytes = 5 := by
    decide
  have remainders :
      355293926785568175264127502063783334808976399387714271831880898435169088786967410002932673765864550910142774147268105838985595290606362 ^
          2 ≡ 5 ^ 3 + 156326 * 5 ^ 2 + 5 [MOD prime] := by
    decide
  have residues := (ZMod.natCast_eq_natCast_iff _ _ _).2 remainders
  rw [abscissa, baseOrdinate]
  exact_mod_cast residues

namespace Point

/-- The multiples of the base point, by its solution modulo the prime. -/
theorem scaleAll_follows_group_from_base :
    baseBytes.length = Field448.byteLength ∧
      bigEndianValue baseBytes < prime ∧
      ∃ context start,
        CurveContext.ofIdentity 0 = .ok context ∧
          ofBytes context baseBytes = .ok start ∧
          ∀ scalars : List Bytes,
            let multiple := scalars.foldl Point.scale start
            let product := (scalars.map bigEndianValue).prod
            (multiple.isInfinity = true ↔
                product • pointAbove baseOrdinate_square = 0) ∧
              (∀ x' y' h',
                product • pointAbove baseOrdinate_square = .some x' y' h' →
                  ∃ u : Residue,
                    algebraMap Residue Residue u = x' ∧
                      multiple.toBytes =
                        .ok (ofNatBigEndian Field448.byteLength u.val)) ∧
              (multiple.isInfinity = true →
                ∀ scalar, multiple.scale scalar = multiple) := by
  have length : baseBytes.length = Field448.byteLength := rfl
  have less : bigEndianValue baseBytes < prime := by
    decide
  rcases CurveContext.exists_ofIdentity 0 with ⟨context, made, -⟩
  rcases
      scaleAll_follows_group made baseBytes length less baseOrdinate
        baseOrdinate_square with
    ⟨start, accepted, multiples⟩
  exact ⟨length, less, context, start, made, accepted, multiples⟩

end Point

end ModularLadder.Curve448
