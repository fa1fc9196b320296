import Mathlib
import ModularLadder.Proofs.Ed448.Coordinates

/-!
# Points on Ed448 in the group of the curve

A point stands for a point of the curve under a context if it belongs to the
context, its coordinates stand for that point, and its temporaries have a
scratch area that fits.  Every operation on such points, which all belong to
one context, has a result; it is again such a point, and stands for the result
of the group.

Affine coordinates are accepted exactly if they are canonical and solve the
equation, and what is written of a point is accepted again.  Two points
compare as equal exactly if they stand for the same point.
-/

namespace ModularLadder.Ed448

open Bytes (bigEndianValue ofNatBigEndian)
open EdwardsCurve (Solves)
open Field448 (IsForm Residue prime residue)
open Montgomery (Context ScratchM)

/-! ## Points that stand for points of the curve -/

/-- A point under a context that stands for a point of the curve. -/
structure Point.Stands
    (context : CurveContext)
    (point : Point)
    (P : CurvePoint) :
    Prop where
  curve_eq : point.curve = context
  coordinates : point.coordinates.Stands P
  room : Workplace.room.holds point.workplace

/-- An outcome that is a point which stands for a point of the curve. -/
def Point.Answers
    (context : CurveContext)
    (outcome : Except Failure Point)
    (P : CurvePoint) :
    Prop :=
  ∃ point, outcome = .ok point ∧ point.Stands context P

/-- Whether two points compare as equal. -/
def Point.Same (left right : Point) : Prop :=
  left.eq right = .ok true

namespace Point

/-- The projective coordinates that affine ones are read as. -/
def encodedCoordinates (context : CurveContext) (x y : Bytes) : Coordinates :=
  { x := context.field.encoded x
    y := context.field.encoded y
    z := context.field.ofWord 1 }

/-- The point that affine coordinates on the curve are read as. -/
def ofAffine (context : CurveContext) (x y : Bytes) : Point :=
  let coordinates := encodedCoordinates context x y
  let point := ofCoordinates context coordinates
  { point with
    workplace := ((context.onCurve coordinates).run point.workplace).2 }

/-- Whether the cross products of two points agree. -/
def agreement
    (field : Context)
    (left right : Coordinates) :
    ScratchM Choice := do
  let leftX ← field.multiply left.x right.z
  let rightX ← field.multiply right.x left.z
  let leftY ← field.multiply left.y right.z
  let rightY ← field.multiply right.y left.z
  return Words.eq leftX rightX &&& Words.eq leftY rightY

/-- The affine coordinates of a point in Montgomery form. -/
def affine (field : Context) (coordinates : Coordinates) :
    ScratchM (Words × Words) := do
  let inverse ← field.inverse coordinates.z
  let x ← field.multiply coordinates.x inverse
  let y ← field.multiply coordinates.y inverse
  return (x, y)

/-- The base point, as an element of the group. -/
def basePoint : CurvePoint where
  x := bigEndianValue baseX
  y := bigEndianValue baseY
  solves := by
    have equation :
        bigEndianValue baseX ^ 2 + bigEndianValue baseY ^ 2 +
            39081 * bigEndianValue baseX ^ 2 * bigEndianValue baseY ^ 2 ≡
          1 [MOD prime] := by
      decide +kernel
    have residues := (ZMod.natCast_eq_natCast_iff _ _ _).2 equation
    push_cast at residues
    rw [Solves, curve_a, curve_d, coefficient, Nat.cast_ofNat]
    linear_combination residues

variable
  {context : CurveContext}
  {point left right source : Point}
  {P Q : CurvePoint}

theorem Stands.answers
    (stands : point.Stands context P) :
    Answers context (.ok point) P :=
  ⟨point, rfl, stands⟩

theorem Answers.bind
    {outcome : Except Failure Point}
    {next : Point → Except Failure Point}
    (first : Answers context outcome P)
    (rest : ∀ point, point.Stands context P → Answers context (next point) Q) :
    Answers context (outcome >>= next) Q := by
  rcases first with ⟨point, rfl, stands⟩
  exact rest point stands

/-- New coordinates, computed on the point's own temporaries. -/
theorem Stands.update
    {operation : WorkplaceM Coordinates}
    (stands : point.Stands context P)
    (ensures :
      Workplace.room.Ensures operation fun coordinates workplace =>
        coordinates.Stands Q ∧ Workplace.room.holds workplace) :
    (point.update operation).Stands context Q := by
  rcases ensures point.workplace stands.room with ⟨coordinates, room⟩
  exact ⟨stands.curve_eq, coordinates, room⟩

section

variable
  (first : left.Stands context P)
  (second : right.Stands context Q)

include first second

theorem Stands.checkSameCurve_eq :
    checkSameCurve left right = .ok () := by
  rw [checkSameCurve, first.curve_eq, second.curve_eq, if_pos rfl]

theorem Stands.copyFrom :
    Answers context (left.copyFrom right) Q := by
  refine ⟨{ left with coordinates := right.coordinates }, ?_, ?_⟩
  · rw [Point.copyFrom, first.checkSameCurve_eq second]
    rfl
  · exact ⟨first.curve_eq, second.coordinates, first.room⟩

end

/-! ## Operations of the group -/

section

variable
  (sound : context.Sound)

include sound

theorem stands_ofCoordinates
    {coordinates : Coordinates}
    (stands : coordinates.Stands P) :
    (ofCoordinates context coordinates).Stands context P :=
  ⟨rfl, stands, sound.room_fresh⟩

theorem stands_neutral :
    (neutral context).Stands context 0 :=
  stands_ofCoordinates sound sound.stands_neutral

/-- The sum has a result, which stands for the sum, whatever the points are. -/
theorem Stands.add
    (first : left.Stands context P)
    (second : right.Stands context Q) :
    Answers context (left.add right) (P + Q) := by
  refine ⟨_, ?_, first.update (sound.add first.coordinates second.coordinates)⟩
  rw [Point.add, first.checkSameCurve_eq second, first.curve_eq]
  rfl

/-- The double stands for the sum of the point with itself. -/
theorem Stands.double
    (stands : point.Stands context P) :
    point.double.Stands context (P + P) := by
  rw [Point.double, stands.curve_eq]
  exact stands.update (sound.double stands.coordinates)

/-- The negation stands for the opposite point. -/
theorem Stands.neg
    (stands : point.Stands context P) :
    point.neg.Stands context (-P) := by
  rw [Point.neg, stands.curve_eq]
  exact stands.update (sound.neg stands.coordinates)

/-! ## Comparison -/

/-- The cross products agree if both stand for the same point. -/
theorem agreement_ensures
    {first second : Coordinates}
    (firstStands : first.Stands P)
    (secondStands : second.Stands Q) :
    (agreement context.field first second).Ensures Field448.width fun same =>
      same = Choice.ofBool (decide (P = Q)) := by
  have made := sound.made
  have x := firstStands.x_proper.isForm
  have y := firstStands.y_proper.isForm
  have z := firstStands.z_proper.isForm
  have x' := secondStands.x_proper.isForm
  have y' := secondStands.y_proper.isForm
  have z' := secondStands.z_proper.isForm
  apply ScratchM.Ensures.bind (Field448.multiply_yields made x z')
  intro _ leftX
  apply ScratchM.Ensures.bind (Field448.multiply_yields made x' z)
  intro _ rightX
  apply ScratchM.Ensures.bind (Field448.multiply_yields made y z')
  intro _ leftY
  apply ScratchM.Ensures.bind (Field448.multiply_yields made y' z)
  intro _ rightY
  apply ScratchM.Ensures.pure
  rw [Field448.eq_eq leftX rightX, Field448.eq_eq leftY rightY,
    Choice.and_ofBool, ← Bool.decide_and]
  congr 1
  apply decide_eq_decide.2
  exact firstStands.represents.eq_iff secondStands.represents

/-- The comparison has a result: whether both stand for the same point. -/
theorem Stands.eq_eq
    (first : left.Stands context P)
    (second : right.Stands context Q) :
    left.eq right = .ok (decide (P = Q)) := by
  have answer :=
    (agreement_ensures sound first.coordinates second.coordinates).evaluate
  rw [← Field448.width_eq sound.made] at answer
  rw [Point.eq, first.checkSameCurve_eq second, first.curve_eq]
  change
    Except.ok ((agreement context.field left.coordinates
      right.coordinates).evaluate context.field.width).isSet = _
  rw [answer, Choice.isSet_ofBool]

/-- Points compare as equal exactly if they stand for the same point. -/
theorem Stands.same_iff
    (first : left.Stands context P)
    (second : right.Stands context Q) :
    Same left right ↔ P = Q := by
  rw [Same, first.eq_eq sound second, Except.ok.injEq, decide_eq_true_eq]

theorem Stands.same
    (first : left.Stands context P)
    (second : right.Stands context P) :
    Same left right :=
  (first.same_iff sound second).2 rfl

/-! ## Reading and writing -/

theorem affine_ensures
    {coordinates : Coordinates}
    (stands : coordinates.Stands P) :
    (affine context.field coordinates).Ensures Field448.width fun pair =>
      IsForm pair.1 P.x ∧ IsForm pair.2 P.y := by
  have made := sound.made
  have represents := stands.represents
  have coordinate (u : Residue) :
      u * residue coordinates.z * (residue coordinates.z)⁻¹ = u :=
    mul_inv_cancel_right₀ represents.z_ne_zero u
  apply ScratchM.Ensures.bind
    (Field448.inverse_yields made stands.z_proper.isForm)
  intro _ inverse
  apply ScratchM.Ensures.bind
    (Field448.multiply_yields made stands.x_proper.isForm inverse)
  intro _ x
  apply ScratchM.Ensures.bind
    (Field448.multiply_yields made stands.y_proper.isForm inverse)
  intro _ y
  rw [represents.x_eq, coordinate] at x
  rw [represents.y_eq, coordinate] at y
  exact ScratchM.Ensures.pure ⟨x, y⟩

/-- The affine coordinates that are written are those of the point. -/
theorem Stands.toBytes_eq
    (stands : point.Stands context P) :
    point.toBytes =
      .ok (ofNatBigEndian Field448.byteLength P.x.val,
        ofNatBigEndian Field448.byteLength P.y.val) := by
  rcases (affine_ensures sound stands.coordinates).evaluate with ⟨x, y⟩
  rw [← Field448.width_eq sound.made] at x y
  have x_eq := Field448.encode_form_eq sound.made x
  have y_eq := Field448.encode_form_eq sound.made y
  have toBytes_def (other : Point) :
      other.toBytes =
        (do
          let field := other.curve.field
          let pair := (affine field other.coordinates).evaluate field.width
          let x ← Field448.encode field pair.1
          let y ← Field448.encode field pair.2
          return (x, y)) :=
    rfl
  simp only [toBytes_def, stands.curve_eq, x_eq, y_eq]
  rfl

/-- The check of canonical coordinates is the equation of the curve. -/
theorem onCurve_encoded
    {x y : Bytes}
    (xLess : bigEndianValue x < prime)
    (yLess : bigEndianValue y < prime) :
    Workplace.room.Ensures (context.onCurve (encodedCoordinates context x y))
      fun answer workplace =>
        answer =
            Choice.ofBool
              (decide
                (Solves 1 coefficient (bigEndianValue x : Residue)
                  (bigEndianValue y : Residue))) ∧
          Workplace.room.holds workplace :=
  sound.onCurve
    (Field448.isForm_encoded sound.made x xLess)
    (Field448.isForm_encoded sound.made y yLess)
    (Field448.isForm_ofWord_one sound.made)

/-- Canonical coordinates on the curve are read as the point they are. -/
theorem stands_ofAffine
    {x y : Bytes}
    (xLess : bigEndianValue x < prime)
    (yLess : bigEndianValue y < prime)
    (x_eq : (bigEndianValue x : Residue) = P.x)
    (y_eq : (bigEndianValue y : Residue) = P.y) :
    (ofAffine context x y).Stands context P := by
  have x_form := Field448.isForm_encoded sound.made x xLess
  have y_form := Field448.isForm_encoded sound.made y yLess
  rw [x_eq] at x_form
  rw [y_eq] at y_form
  have checked := onCurve_encoded sound xLess yLess _ sound.room_fresh
  exact ⟨rfl, sound.stands_of_affine x_form y_form rfl, checked.2⟩

/-- Which affine coordinates are accepted, and how others are refused. -/
theorem ofBytes_eq
    (x y : Bytes) :
    ofBytes context x y =
      if x.length = Field448.byteLength ∧ y.length = Field448.byteLength ∧
          bigEndianValue x < prime ∧ bigEndianValue y < prime then
        if Solves 1 coefficient (bigEndianValue x : Residue)
            (bigEndianValue y : Residue) then
          .ok (ofAffine context x y)
        else
          .error .pointNotOnCurve
      else
        .error .value := by
  rw [ofBytes]
  by_cases lengths :
      x.length = Field448.byteLength ∧ y.length = Field448.byteLength
  · have accepted :
        ¬(x.length ≠ Field448.byteLength ∨ y.length ≠ Field448.byteLength) := by
      rw [not_or, not_ne_iff, not_ne_iff]
      exact lengths
    rw [if_neg accepted, Field448.encode_eq sound.made lengths.1,
      Field448.encode_eq sound.made lengths.2]
    by_cases xLess : bigEndianValue x < prime <;>
      by_cases yLess : bigEndianValue y < prime <;>
      simp only [lengths, xLess, yLess, and_self, and_true, and_false,
        if_true, if_false]
    · have answer := (onCurve_encoded sound xLess yLess _ sound.room_fresh).1
      change
        (if !(((context.onCurve (encodedCoordinates context x y)).run
            (Workplace.fresh context.field)).1).isSet then
          throw Failure.pointNotOnCurve
        else
          pure (ofAffine context x y) : Except Failure Point) = _
      rw [answer, Choice.isSet_ofBool]
      by_cases solves :
          Solves 1 coefficient (bigEndianValue x : Residue)
            (bigEndianValue y : Residue)
      · rw [if_pos solves, decide_eq_true solves]
        rfl
      · rw [if_neg solves, decide_eq_false solves]
        rfl
    all_goals rfl
  · have refused :
        x.length ≠ Field448.byteLength ∨ y.length ≠ Field448.byteLength := by
      rw [← not_and_or]
      exact lengths
    have notAll :
        ¬(x.length = Field448.byteLength ∧ y.length = Field448.byteLength ∧
          bigEndianValue x < prime ∧ bigEndianValue y < prime) := by
      rintro ⟨xLength, yLength, -, -⟩
      exact lengths ⟨xLength, yLength⟩
    rw [if_pos refused, if_neg notAll]
    rfl

/-- Whatever is accepted stands for a point of the curve. -/
theorem exists_stands_of_ofBytes
    {x y : Bytes}
    (accepted : ofBytes context x y = .ok point) :
    ∃ P, point.Stands context P := by
  rw [ofBytes_eq sound] at accepted
  split at accepted
  · rename_i canonical
    split at accepted
    · rename_i solves
      rw [← Except.ok.inj accepted]
      exact
        ⟨{ x := bigEndianValue x
           y := bigEndianValue y
           solves := solves },
          stands_ofAffine sound canonical.2.2.1 canonical.2.2.2 rfl rfl⟩
    · exact nomatch accepted
  · exact nomatch accepted

/-- Points are written alike exactly if they stand for the same point. -/
theorem Stands.toBytes_eq_iff
    (first : left.Stands context P)
    (second : right.Stands context Q) :
    left.toBytes = right.toBytes ↔ P = Q := by
  rw [first.toBytes_eq sound, second.toBytes_eq sound, Except.ok.injEq,
    Prod.mk.injEq]
  constructor
  · rintro ⟨x, y⟩
    exact
      EdwardsCurve.Point.ext (Field448.ofNatBigEndian_val_injective x)
        (Field448.ofNatBigEndian_val_injective y)
  · rintro rfl
    exact ⟨rfl, rfl⟩

/-- The coordinates of every point of the curve are accepted. -/
theorem ofBytes_coordinates
    (P : CurvePoint) :
    Answers context
      (ofBytes context
        (ofNatBigEndian Field448.byteLength P.x.val)
        (ofNatBigEndian Field448.byteLength P.y.val))
      P := by
  have less (u : Residue) :
      bigEndianValue (ofNatBigEndian Field448.byteLength u.val) < prime := by
    simpa using ZMod.val_lt u
  have residue_eq (u : Residue) :
      (bigEndianValue (ofNatBigEndian Field448.byteLength u.val) : Residue) =
        u := by
    simp
  refine
    ⟨_, ?_,
      stands_ofAffine sound (less P.x) (less P.y) (residue_eq P.x)
        (residue_eq P.y)⟩
  rw [ofBytes_eq sound, if_pos, if_pos]
  · rw [residue_eq, residue_eq]
    exact P.solves
  · exact ⟨by simp, by simp, less P.x, less P.y⟩

/-- The base point is accepted. -/
theorem answers_base :
    Answers context (base context) basePoint := by
  have canonical :
      baseX.length = Field448.byteLength ∧
        baseY.length = Field448.byteLength ∧
        bigEndianValue baseX < prime ∧ bigEndianValue baseY < prime := by
    decide +kernel
  have solves :
      Solves 1 coefficient (bigEndianValue baseX : Residue)
        (bigEndianValue baseY : Residue) :=
    basePoint.solves
  refine
    ⟨ofAffine context baseX baseY, ?_,
      stands_ofAffine sound canonical.2.2.1 canonical.2.2.2 rfl rfl⟩
  rw [base, ofBytes_eq sound, if_pos canonical, if_pos solves]

end

end Point

end ModularLadder.Ed448
