import Mathlib
import ModularLadder.Proofs.Curve448.Point
import ModularLadder.Proofs.PointComparison

/-!
# The points that programs on Curve448 meet

A point is reachable under a context if it is built from an accepted coordinate
or the point at infinity of the context by multiplications and copies.  Over a
field in which every number has a square root, every reachable point stands
for a point of the curve, by induction on how it is built.

The coordinates of what stands for a point are not zero both, although the
ladder alone can end with `0 / 0` for the base of order two.  Hence the comparison
of reachable points, by cross products, is that of the coordinates they are
written by, and points of one context always compare.
-/

namespace ModularLadder.Curve448.Point

open Bytes (bigEndianValue ofNatBigEndian)
open Field448 (Residue prime residue)
open Montgomery (Context ScratchM)

/--
The points that are built under a context by the operations on points.  A
clone of a point is the point itself.
-/
inductive Reachable (context : CurveContext) : Point → Prop where
  | ofBytes
      {x : Bytes}
      {point : Point}
      (accepted : Point.ofBytes context x = .ok point) :
      Reachable context point
  | infinity : Reachable context (Point.infinity context)
  | scale
      {point : Point}
      (reachable : Reachable context point)
      (scalar : Bytes) :
      Reachable context (point.scale scalar)
  | copyFrom
      {point source copy : Point}
      (reachable : Reachable context point)
      (sourceReachable : Reachable context source)
      (copied : point.copyFrom source = .ok copy) :
      Reachable context copy

/-- The affine x-coordinate as a residue, or none at infinity. -/
def abscissa (point : Point) : Option Residue :=
  affinePart (residue point.coordinates.x) (residue point.coordinates.z)

/-- Whether the cross products of two points agree. -/
def agreement
    (field : Context)
    (left right : Coordinates) :
    ScratchM Choice := do
  let leftProduct ← field.multiply left.x right.z
  let rightProduct ← field.multiply right.x left.z
  return Words.eq leftProduct rightProduct

section

variable
  {K : Type*}
  [Field K]
  [Algebra Residue K]
  {context : CurveContext}
  {point left right : Point}
  {P Q : CurvePoint K}

section

variable
  (first : left.Stands context P)
  (second : right.Stands context Q)

include first second

theorem Stands.checkSameCurve_eq :
    checkSameCurve left right = .ok () := by
  rw [checkSameCurve, first.curve_eq, second.curve_eq, if_pos rfl]

/-- A copy of the coordinates stands for the point that was copied. -/
theorem Stands.copyFrom :
    ∃ copy, left.copyFrom right = .ok copy ∧ copy.Stands context Q := by
  refine ⟨{ left with coordinates := right.coordinates }, ?_, ?_⟩
  · rw [Point.copyFrom, first.checkSameCurve_eq second]
    rfl
  · exact ⟨first.curve_eq, second.coordinates, first.room⟩

end

theorem Stands.not_both_zero
    (stands : point.Stands context P) :
    ¬(residue point.coordinates.x = 0 ∧ residue point.coordinates.z = 0) := by
  rcases stands.coordinates with ⟨x, z, forms, fraction⟩
  have proper := MontgomeryCurve.Represents.not_both_zero fraction
  rw [map_eq_zero, map_eq_zero] at proper
  rw [forms.x_form.residue_eq, forms.z_form.residue_eq]
  exact proper

theorem Stands.isInfinity_eq_isNone
    (stands : point.Stands context P) :
    point.isInfinity = point.abscissa.isNone := by
  rcases stands.coordinates with ⟨x, z, forms, fraction⟩
  rw [isInfinity, Field448.isZero_eq forms.z_form, Choice.isSet_ofBool,
    Bool.eq_iff_iff, decide_eq_true_eq, Option.isNone_iff_eq_none, abscissa,
    affinePart_eq_none_iff, forms.z_form.residue_eq]

section

variable
  (sound : context.Sound)

include sound

theorem stands_infinity :
    (infinity context).Stands context (0 : CurvePoint K) := by
  have one := Field448.isForm_ofWord_one sound.made
  have zero := Field448.isForm_zero sound.made
  exact stands_ofCoordinates sound ⟨1, 0, ⟨one, zero⟩, fraction_infinity⟩

variable (K) in
/-- Whatever is accepted stands for a point over a large enough field. -/
theorem exists_stands_of_ofBytes
    [IsAlgClosed K]
    {x : Bytes}
    (accepted : ofBytes context x = .ok point) :
    ∃ P : CurvePoint K, point.Stands context P := by
  have canonical :
      x.length = Field448.byteLength ∧ bigEndianValue x < prime := by
    by_contra refused
    rw [ofBytes_eq sound, if_neg refused] at accepted
    cases accepted
  rcases
      (smooth_coefficient K).exists_nonsingular (bigEndianValue x : K) with
    ⟨y, h⟩
  rcases ofBytes_stands sound canonical.1 canonical.2 h with
    ⟨other, other_accepted, stands⟩
  rw [accepted] at other_accepted
  rw [Except.ok.inj other_accepted]
  exact ⟨_, stands⟩

variable (K) in
/-- Every reachable point stands for a point of the curve. -/
theorem Reachable.exists_stands
    [IsAlgClosed K]
    (reachable : Reachable context point) :
    ∃ P : CurvePoint K, point.Stands context P := by
  classical
  induction reachable with
  | ofBytes accepted => exact exists_stands_of_ofBytes K sound accepted
  | infinity => exact ⟨0, stands_infinity sound⟩
  | scale _ scalar ih =>
    rcases ih with ⟨P, stands⟩
    exact ⟨bigEndianValue scalar • P, stands.scale sound scalar⟩
  | copyFrom _ _ copied first second =>
    rcases first with ⟨P, first⟩
    rcases second with ⟨Q, second⟩
    rcases first.copyFrom second with ⟨copy, copy_eq, stands⟩
    rw [copied] at copy_eq
    cases copy_eq
    exact ⟨Q, stands⟩

/-- Cross products compare the coordinates of points. -/
theorem Stands.eq_eq
    (first : left.Stands context P)
    (second : right.Stands context Q) :
    left.eq right = .ok (decide (left.abscissa = right.abscissa)) := by
  have made := sound.made
  have fractions :=
    cross_products_iff first.not_both_zero second.not_both_zero
  rcases first.coordinates with ⟨_, _, ⟨x, z⟩, -⟩
  rcases second.coordinates with ⟨_, _, ⟨x', z'⟩, -⟩
  have products :
      (agreement context.field left.coordinates right.coordinates).Ensures
        Field448.width fun same =>
          same = Choice.ofBool (decide (left.abscissa = right.abscissa)) := by
    apply ScratchM.Ensures.bind
      (Field448.multiply_yields made x.proper.isForm z'.proper.isForm)
    intro _ leftProduct
    apply ScratchM.Ensures.bind
      (Field448.multiply_yields made x'.proper.isForm z.proper.isForm)
    intro _ rightProduct
    apply ScratchM.Ensures.pure
    rw [Field448.eq_eq leftProduct rightProduct]
    exact congrArg Choice.ofBool (decide_eq_decide.2 fractions)
  have answer := products.evaluate
  rw [← Field448.width_eq made] at answer
  rw [Point.eq, first.checkSameCurve_eq second, first.curve_eq]
  change
    Except.ok ((agreement context.field left.coordinates
      right.coordinates).evaluate context.field.width).isSet = _
  rw [answer, Choice.isSet_ofBool]

/-- A point is written by its coordinate. -/
theorem Stands.toBytes_of_abscissa
    {u : Residue}
    (stands : point.Stands context P)
    (reads : point.abscissa = some u) :
    point.toBytes = .ok (ofNatBigEndian Field448.byteLength u.val) := by
  have finite : ¬point.isInfinity = true := by
    rw [stands.isInfinity_eq_isNone, reads]
    exact Bool.false_ne_true
  rcases affinePart_eq_some_iff.1 reads with ⟨-, quotient⟩
  rcases stands.coordinates with ⟨x, z, forms, -⟩
  rw [forms.x_form.residue_eq, forms.z_form.residue_eq, div_eq_mul_inv]
    at quotient
  rw [toBytes_eq_quotient sound stands.curve_eq forms finite, quotient]

end

end

section

variable
  {context : CurveContext}
  (sound : context.Sound)

include sound

/-- The comparison of reachable points is that of the bytes they are written by. -/
theorem compares_coordinates :
    ComparesCoordinates (Reachable context) eq isInfinity toBytes
      (infinity context) := by
  let K := AlgebraicClosure Residue
  have compares : ComparesBy (Reachable context) eq abscissa := by
    intro left right leftReachable rightReachable
    rcases leftReachable.exists_stands K sound with ⟨P, first⟩
    rcases rightReachable.exists_stands K sound with ⟨Q, second⟩
    exact first.eq_eq sound second
  apply compares.comparesCoordinates Field448.ofNatBigEndian_val_injective
  · exact .infinity
  · exact affinePart_eq_none_iff.2 (Field448.isForm_zero sound.made).residue_eq
  · intro point reachable
    rcases reachable.exists_stands K sound with ⟨P, stands⟩
    exact stands.isInfinity_eq_isNone
  · intro point u reachable reads
    rcases reachable.exists_stands K sound with ⟨P, stands⟩
    exact stands.toBytes_of_abscissa sound reads

/-- Numerator and denominator of a reachable point are not zero both. -/
theorem Reachable.not_both_multiples
    {point : Point}
    (reachable : Reachable context point) :
    ¬(prime ∣ Words.value point.coordinates.x ∧
        prime ∣ Words.value point.coordinates.z) := by
  rcases reachable.exists_stands (AlgebraicClosure Residue) sound with
    ⟨P, stands⟩
  rintro ⟨numerator, denominator⟩
  apply stands.not_both_zero
  rw [← ZMod.natCast_eq_zero_iff] at numerator denominator
  rw [residue, residue, numerator, denominator, zero_mul]
  exact ⟨rfl, rfl⟩

end

end ModularLadder.Curve448.Point
