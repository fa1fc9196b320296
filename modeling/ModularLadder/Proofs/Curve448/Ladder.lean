import Mathlib
import ModularLadder.Curve448.Ladder
import ModularLadder.Proofs.ExactLadder
import ModularLadder.Proofs.Field448.Workplace

/-!
# The ladder on Curve448 follows the exact one

The lower point of a climb is the outcome, and the upper one is kept among the
temporaries with the x-coordinate of the base.  The coordinates of both are
Montgomery forms of the coordinates of an exact climb over the residues, and
one bit keeps them so, whatever else is left in the temporaries.

Exchanging points moves coordinates between the outcome and the temporaries
only, so that the climb along any bits ends with the forms of the exact
outcome.
-/

namespace ModularLadder.Curve448

open Field448 (IsForm Residue Room)

/-- The constant `(A - 2) / 4` as a residue. -/
def constant : Residue :=
  39081

/-- What the points under a context need of it. -/
structure CurveContext.Sound (context : CurveContext) : Prop where
  made : Field448.context = .ok context.field
  a24_form : IsForm context.a24 constant

/-- Every identity makes a context. -/
theorem CurveContext.exists_ofIdentity
    (identity : Nat) :
    ∃ context,
      CurveContext.ofIdentity identity = .ok context ∧ context.Sound := by
  rcases Field448.exists_context with ⟨field, made⟩
  refine
    ⟨{ identity := identity, field := field, a24 := field.ofWord 39081 }, ?_,
      made, ?_⟩
  · rw [CurveContext.ofIdentity, made]
    rfl
  · simpa [constant] using Field448.isForm_ofWord made 39081

theorem CurveContext.sound_of_ofIdentity
    {identity : Nat}
    {context : CurveContext}
    (made : CurveContext.ofIdentity identity = .ok context) :
    context.Sound := by
  rcases exists_ofIdentity identity with ⟨other, other_made, sound⟩
  rw [made] at other_made
  rw [Except.ok.inj other_made]
  exact sound

/-- Coordinates that are the forms of a fraction. -/
structure Coordinates.Forms
    (coordinates : Coordinates)
    (x z : Residue) :
    Prop where
  x_form : IsForm coordinates.x x
  z_form : IsForm coordinates.z z

namespace Workplace

/--
Temporaries with a scratch area that fits, and with known properties of the
base's x-coordinate and of the upper point's coordinates.
-/
def keeping (base numerator denominator : Words → Prop) : Room Workplace where
  holds workplace :=
    workplace.scratch.Fits Field448.width ∧
      base workplace.x1 ∧
      numerator workplace.x3 ∧
      denominator workplace.z3
  fits _ holds := holds.1
  keeps _ _ holds fits := ⟨fits, holds.2⟩

/-- Temporaries of which nothing else is known. -/
def room : Room Workplace :=
  keeping (fun _ => True) (fun _ => True) (fun _ => True)

/-- Temporaries with the base's x-coordinate. -/
def withBase (x1 : Residue) : Room Workplace :=
  keeping (IsForm · x1) (fun _ => True) (fun _ => True)

/-- Temporaries with the base's x-coordinate and the upper point. -/
def withUpper (x1 x3 z3 : Residue) : Room Workplace :=
  keeping (IsForm · x1) (IsForm · x3) (IsForm · z3)

end Workplace

namespace CurveContext

variable
  {context : CurveContext}
  {lower : Coordinates}
  {x1 : Residue}
  {rungs : ExactLadder.Rungs Residue}

theorem Sound.encodes_zero
    (sound : context.Sound) :
    Field448.Yields (context.field.encodeWord 0) 0 := by
  simpa using Field448.encodeWord_yields sound.made 0

theorem Sound.encodes_one
    (sound : context.Sound) :
    Field448.Yields (context.field.encodeWord 1) 1 := by
  simpa using Field448.encodeWord_yields sound.made 1

/-- A step has the residues of the exact one. -/
theorem Sound.step
    (sound : context.Sound)
    (forms : lower.Forms rungs.x2 rungs.z2) :
    (Workplace.withUpper x1 rungs.x3 rungs.z3).Ensures (context.step lower)
      fun after workplace =>
        let next := rungs.step constant x1
        after.Forms next.x2 next.z2 ∧
          (Workplace.withUpper x1 next.x3 next.z3).holds workplace := by
  have made := sound.made
  rcases forms with ⟨x2, z2⟩
  apply Room.Ensures.get_bind
  rintro before ⟨-, base, x3, z3⟩
  refine (Field448.add_yields made x2 z2).bind fun _ a => ?_
  refine (Field448.sub_yields made x2 z2).bind fun _ b => ?_
  refine (Field448.add_yields made x3 z3).bind fun _ c => ?_
  refine (Field448.sub_yields made x3 z3).bind fun _ d => ?_
  refine (Field448.multiply_yields made d a).bind fun _ da => ?_
  refine (Field448.multiply_yields made c b).bind fun _ cb => ?_
  refine (Field448.add_yields made da cb).bind fun _ crossSum => ?_
  refine (Field448.square_yields made crossSum).bind fun _ nextX3 => ?_
  refine (Field448.sub_yields made da cb).bind fun _ crossDifference => ?_
  refine (Field448.square_yields made crossDifference).bind fun _ square => ?_
  refine (Field448.multiply_yields made base square).bind fun _ nextZ3 => ?_
  refine (Field448.square_yields made a).bind fun _ aa => ?_
  refine (Field448.square_yields made b).bind fun _ bb => ?_
  refine (Field448.multiply_yields made aa bb).bind fun _ nextX2 => ?_
  refine (Field448.sub_yields made aa bb).bind fun _ e => ?_
  refine
    (Field448.multiply_yields made sound.a24_form e).bind fun _ scaled => ?_
  refine (Field448.add_yields made aa scaled).bind fun _ slope => ?_
  refine (Field448.multiply_yields made e slope).bind fun _ nextZ2 => ?_
  let next := rungs.step constant x1
  refine
    Room.Ensures.modify_bind (Workplace.withUpper x1 next.x3 next.z3)
      (fun _ holds => ⟨holds.1, holds.2.1, nextX3, nextZ3⟩) ?_
  apply Room.Ensures.pure
  intro workplace holds
  exact ⟨⟨nextX2, nextZ2⟩, holds⟩

variable (x1) in
/-- Exchanging points exchanges the residues of their coordinates. -/
theorem exchange_ensures
    (forms : lower.Forms rungs.x2 rungs.z2)
    (condition : Bool) :
    (Workplace.withUpper x1 rungs.x3 rungs.z3).Ensures
      (exchange (Choice.ofBool condition) lower) fun after workplace =>
        let exchanged := rungs.swapIf condition
        after.Forms exchanged.x2 exchanged.z2 ∧
          (Workplace.withUpper x1 exchanged.x3 exchanged.z3).holds
            workplace := by
  rcases forms with ⟨x2, z2⟩
  apply Room.Ensures.get_bind
  rintro before ⟨fits, base, x3, z3⟩
  rw [Field448.swapIf_ofBool x2.proper x3.proper,
    Field448.swapIf_ofBool z2.proper z3.proper]
  let exchanged := rungs.swapIf condition
  refine
    Room.Ensures.set_bind
      (Workplace.withUpper x1 exchanged.x3 exchanged.z3) ?_ ?_
  · cases condition with
    | false => exact ⟨fits, base, x3, z3⟩
    | true => exact ⟨fits, base, x2, z2⟩
  · apply Room.Ensures.pure
    intro workplace holds
    refine ⟨?_, holds⟩
    cases condition with
    | false => exact ⟨x2, z2⟩
    | true => exact ⟨x3, z3⟩

/-- A climb whose lower point and order follow an exact one. -/
structure Climb.Follows
    (climb : Climb)
    (exact : ExactLadder.Climb Residue) :
    Prop where
  lower : climb.lower.Forms exact.rungs.x2 exact.rungs.z2
  exchanged_eq : climb.exchanged = Choice.ofBool exact.exchanged

variable
  {climb : Climb}
  {exact : ExactLadder.Climb Residue}

theorem Sound.next
    (sound : context.Sound)
    (follows : climb.Follows exact)
    (bit : Bool) :
    (Workplace.withUpper x1 exact.rungs.x3 exact.rungs.z3).Ensures
      (context.next climb (Choice.ofBool bit)) fun after workplace =>
        let next := exact.next constant x1 bit
        after.Follows next ∧
          (Workplace.withUpper x1 next.rungs.x3 next.rungs.z3).holds
            workplace := by
  have ordered :=
    exchange_ensures x1 follows.lower (exact.exchanged ^^ bit)
  rw [← Choice.xor_ofBool, ← follows.exchanged_eq] at ordered
  refine Room.Ensures.bind _ ordered fun _ forms => ?_
  refine Room.Ensures.bind _ (sound.step forms) fun _ forms => ?_
  apply Room.Ensures.pure
  intro workplace holds
  exact ⟨⟨forms, rfl⟩, holds⟩

/-- A climb along any bits follows the exact one. -/
theorem Sound.run
    (sound : context.Sound)
    (follows : climb.Follows exact)
    (bits : List Bool) :
    (Workplace.withUpper x1 exact.rungs.x3 exact.rungs.z3).Ensures
      ((bits.map Choice.ofBool).foldlM context.next climb)
      fun after workplace =>
        let last := bits.foldl (ExactLadder.Climb.next constant x1) exact
        after.Follows last ∧
          (Workplace.withUpper x1 last.rungs.x3 last.rungs.z3).holds
            workplace := by
  induction bits generalizing climb exact with
  | nil =>
    apply Room.Ensures.pure
    intro workplace holds
    exact ⟨follows, holds⟩
  | cons bit bits ih =>
    rw [List.map_cons, List.foldlM_cons]
    exact Room.Ensures.bind _ (sound.next follows bit) fun _ next => ih next

/-- The ladder ends with the forms of the exact outcome. -/
theorem Sound.ladder
    (sound : context.Sound)
    (bits : List Bool) :
    (Workplace.withBase x1).Ensures (context.ladder (bits.map Choice.ofBool))
      fun outcome workplace =>
        let exact := ExactLadder.ladder constant x1 bits
        outcome.Forms exact.x2 exact.z2 ∧ Workplace.room.holds workplace := by
  refine sound.encodes_one.bind fun x x_form => ?_
  refine sound.encodes_zero.bind fun z z_form => ?_
  refine
    Room.Ensures.modify_bind
      (Workplace.keeping (IsForm · x1) (IsForm · x1) (fun _ => True))
      (fun _ holds => ⟨holds.1, holds.2.1, holds.2.1, trivial⟩) ?_
  refine sound.encodes_one.bind fun z3 z3_form => ?_
  refine
    Room.Ensures.modify_bind (Workplace.withUpper x1 x1 1)
      (fun _ holds => ⟨holds.1, holds.2.1, holds.2.2.1, z3_form⟩) ?_
  have start :
      Climb.Follows { lower := { x := x, z := z }, exchanged := Choice.no }
        { rungs := ExactLadder.Rungs.start x1, exchanged := false } :=
    ⟨⟨x_form, z_form⟩, rfl⟩
  refine Room.Ensures.bind _ (sound.run start bits) fun climb follows => ?_
  rw [follows.exchanged_eq]
  refine (exchange_ensures x1 follows.lower _).mono ?_
  rintro outcome workplace ⟨forms, holds⟩
  exact ⟨forms, holds.1, trivial, trivial, trivial⟩

end CurveContext

end ModularLadder.Curve448
