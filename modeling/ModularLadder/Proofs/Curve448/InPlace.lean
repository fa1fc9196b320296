import Mathlib
import ModularLadder.Curve448.Ladder
import ModularLadder.Proofs.Field448.Places

/-!
# The ladder on Curve448 in place

A step overwrites the coordinates of both points and uses six temporaries,
several of them more than once.  An exchange swaps the places of the points.
The programs below say which place every operation reads and writes; the one
of the ladder is made of exchanges and steps along the bits of a scalar.

After a program the places hold the lower point that the computation answers
with and the temporaries that it leaves behind, the upper point among them,
whatever they held beforehand.
-/

namespace ModularLadder.Curve448

open Field448 (Performs onScratch)
open Montgomery (Machine)

/-- The places of a step. -/
inductive Place where
  | x2
  | z2
  | x1
  | x3
  | z3
  | a
  | b
  | c
  | d
  | e
  | f
  | a24
  deriving DecidableEq

/-- What the places hold before a step. -/
def Place.contents
    (context : CurveContext)
    (lower : Coordinates)
    (workplace : Workplace) :
    Place → Words
  | .x2 => lower.x
  | .z2 => lower.z
  | .x1 => workplace.x1
  | .x3 => workplace.x3
  | .z3 => workplace.z3
  | .a => workplace.a
  | .b => workplace.b
  | .c => workplace.c
  | .d => workplace.d
  | .e => workplace.e
  | .f => workplace.f
  | .a24 => context.a24

/-- The lower point and the temporaries, in their places. -/
def places
    (context : CurveContext)
    (lower : Coordinates)
    (workplace : Workplace) :
    Machine Place where
  registers := Place.contents context lower workplace
  scratch := workplace.scratch

/-- A step, in the places of both points. -/
def stepProgram : List (Montgomery.Step Place) :=
  [.add .a .x2 .z2,
    .sub .b .x2 .z2,
    .add .c .x3 .z3,
    .sub .d .x3 .z3,
    .multiply .e .d .a,
    .multiply .f .c .b,
    .add .c .e .f,
    .multiply .x3 .c .c,
    .sub .d .e .f,
    .multiply .c .d .d,
    .multiply .z3 .x1 .c,
    .multiply .e .a .a,
    .multiply .f .b .b,
    .multiply .x2 .e .f,
    .sub .a .e .f,
    .multiply .b .a24 .a,
    .add .c .e .b,
    .multiply .z2 .a .c]

/-- An exchange of both points under a condition. -/
def exchangeProgram (condition : Bool) : List (Montgomery.Step Place) :=
  [.swap .x2 .x3 condition,
    .swap .z2 .z3 condition]

/-- Exchanges and steps along bits, and an exchange in the end. -/
def bitsProgram :
    (exchanged : Bool) → List Bool → List (Montgomery.Step Place)
  | exchanged, [] => exchangeProgram exchanged
  | exchanged, bit :: bits =>
    exchangeProgram (exchanged ^^ bit) ++ (stepProgram ++ bitsProgram bit bits)

/-- The point at infinity below the base. -/
def startProgram : List (Montgomery.Step Place) :=
  [.setWord .x2 1,
    .setWord .z2 0,
    .copy .x3 .x1,
    .setWord .z3 1]

/-- The ladder along the bits of a scalar. -/
def ladderProgram (bits : List Bool) : List (Montgomery.Step Place) :=
  startProgram ++ bitsProgram false bits

section

variable
  (context : CurveContext)
  (lower : Coordinates)
  (workplace : Workplace)

/-- No place of a step is overwritten before it has been read. -/
theorem step_performs :
    Performs context.field (places context)
      (places context lower workplace) stepProgram workplace
      (context.step lower) := by
  refine .get_bind ?_
  refine .operation rfl rfl fun sum _ => ?_
  refine .operation rfl rfl fun difference _ => ?_
  refine .operation rfl rfl fun upperSum _ => ?_
  refine .operation rfl rfl fun upperDifference _ => ?_
  refine .operation rfl rfl fun da _ => ?_
  refine .operation rfl rfl fun cb _ => ?_
  refine .operation rfl rfl fun crossSum _ => ?_
  refine .operation rfl rfl fun x3 _ => ?_
  refine .operation rfl rfl fun crossDifference _ => ?_
  refine .operation rfl rfl fun crossSquare _ => ?_
  refine .operation rfl rfl fun z3 _ => ?_
  refine .operation rfl rfl fun aa _ => ?_
  refine .operation rfl rfl fun bb _ => ?_
  refine .operation rfl rfl fun x2 _ => ?_
  refine .operation rfl rfl fun e _ => ?_
  refine .operation rfl rfl fun scaled _ => ?_
  refine .operation rfl rfl fun slope _ => ?_
  refine .operation rfl rfl fun z2 _ => ?_
  refine .modify_bind (.done ?_ rfl)
  intro place
  cases place <;> rfl

theorem exchange_performs
    (condition : Bool) :
    Performs context.field (places context)
      (places context lower workplace) (exchangeProgram condition) workplace
      (CurveContext.exchange (Choice.ofBool condition) lower) := by
  refine .move (.move ?_)
  refine .get_bind (.set_bind (.done ?_ rfl))
  intro place
  cases place <;> rfl

/-- The loop of the ladder, in any order of the points. -/
theorem bits_performs
    (exchanged : Bool)
    (bits : List Bool) :
    Performs context.field (places context)
      (places context lower workplace) (bitsProgram exchanged bits) workplace
      (do
        let climb ←
          (bits.map Choice.ofBool).foldlM context.next
            { lower := lower, exchanged := Choice.ofBool exchanged }
        CurveContext.exchange climb.exchanged climb.lower) := by
  induction bits generalizing lower exchanged workplace with
  | nil => exact exchange_performs context lower workplace exchanged
  | cons bit bits ih =>
    have next (ordered : Coordinates) (left : Workplace) :=
      (step_performs context ordered left).append fun after left =>
        ih after left bit
    have performs :=
      (exchange_performs context lower workplace (exchanged ^^ bit)).append next
    rw [← Choice.xor_ofBool] at performs
    exact performs

theorem start_performs :
    Performs context.field (places context)
      (places context lower workplace) startProgram workplace
      (do
        let x ← onScratch (context.field.encodeWord 1)
        let z ← onScratch (context.field.encodeWord 0)
        modify fun workplace => { workplace with x3 := workplace.x1 }
        let z3 ← onScratch (context.field.encodeWord 1)
        modify fun workplace => { workplace with z3 := z3 }
        return { x := x, z := z }) := by
  refine .operation rfl rfl fun x _ => ?_
  refine .operation rfl rfl fun z _ => ?_
  refine .modify_bind (.move ?_)
  refine .operation rfl rfl fun z3 _ => ?_
  refine .modify_bind (.done ?_ rfl)
  intro place
  cases place <;> rfl

/-- The ladder along the bits of a scalar, in place. -/
theorem ladder_performs
    (bits : List Bool) :
    Performs context.field (places context)
      (places context lower workplace) (ladderProgram bits) workplace
      (context.ladder (bits.map Choice.ofBool)) :=
  (start_performs context lower workplace).append fun middle left =>
    bits_performs context middle left false bits

end

end ModularLadder.Curve448
