import ModularLadder.Field448

/-!
# Projective arithmetic on Ed448

The curve is `x^2 + y^2 = 1 + d * x^2 * y^2` modulo `2^448 - 2^224 - 1` with
`d = -39081`.  Points are kept in projective coordinates `(X : Y : Z)` with
`x = X / Z` and `y = Y / Z`, each in Montgomery form.  The formulas for sums
and doubles are complete: they hold for all points without exception.

Sums and doubles use temporaries that belong to a point.  Each of them is
written before it is read, so that nothing an earlier operation has left there
enters a result.
-/

namespace ModularLadder.Ed448

open Field448 (onScratch)
open Montgomery (Context Scratch)

/-- Temporaries of sums and doubles. -/
structure Workplace where
  a : Words
  b : Words
  c : Words
  d : Words
  e : Words
  f : Words
  scratch : Scratch

/-- Fresh temporaries. -/
def Workplace.fresh (field : Context) : Workplace :=
  { a := field.zero
    b := field.zero
    c := field.zero
    d := field.zero
    e := field.zero
    f := field.zero
    scratch := Scratch.ofWidth field.width }

/-- A computation that uses the temporaries. -/
abbrev WorkplaceM := StateM Workplace

instance : Field448.HoldsScratch Workplace where
  scratch workplace := workplace.scratch
  putScratch scratch workplace := { workplace with scratch := scratch }

/-- The curve's constants, with an identity that tells contexts apart. -/
structure CurveContext where
  identity : Nat
  field : Context
  /-- The constant `d` in Montgomery form. -/
  d : Words

/-- A context with the given identity. -/
def CurveContext.ofIdentity (identity : Nat) : Except Failure CurveContext := do
  let field ← Field448.context
  let d ←
    field.encode
      (Bytes.ofNatBigEndian Field448.byteLength (Field448.prime - 39081))
  return { identity := identity, field := field, d := d }

/-- Projective coordinates of a point. -/
structure Coordinates where
  x : Words
  y : Words
  z : Words

namespace Coordinates

/-- The coordinates of the neutral element `(0, 1)`. -/
def neutral (field : Context) : Coordinates :=
  { x := field.zero, y := field.ofWord 1, z := field.ofWord 1 }

/-- Two points' coordinates, exchanged if the choice is set. -/
def swapIf
    (left right : Coordinates)
    (choice : Choice) :
    Coordinates × Coordinates :=
  let x := Words.swapIf left.x right.x choice
  let y := Words.swapIf left.y right.y choice
  let z := Words.swapIf left.z right.z choice
  ({ x := x.1, y := y.1, z := z.1 }, { x := x.2, y := y.2, z := z.2 })

end Coordinates

namespace CurveContext

/-- Whether the affine coordinates of a point satisfy the curve equation. -/
def onCurve
    (curve : CurveContext)
    (point : Coordinates) :
    WorkplaceM Choice := do
  let field := curve.field
  let xx ← onScratch (field.square point.x)
  let yy ← onScratch (field.square point.y)
  let left ← onScratch (field.add xx yy)
  let both ← onScratch (field.multiply xx yy)
  let scaled ← onScratch (field.multiply curve.d both)
  let right ← onScratch (field.add scaled point.z)
  modify fun workplace =>
    { workplace with
      a := xx
      b := yy
      c := left
      d := both
      e := scaled
      f := right }
  return Words.eq left right

/-- The sum of two points. -/
def add
    (curve : CurveContext)
    (left right : Coordinates) :
    WorkplaceM Coordinates := do
  let field := curve.field
  let a ← onScratch (field.multiply left.z right.z)
  let b ← onScratch (field.square a)
  let c ← onScratch (field.multiply left.x right.x)
  let d ← onScratch (field.multiply left.y right.y)
  let cd ← onScratch (field.multiply c d)
  let e ← onScratch (field.multiply curve.d cd)
  let f ← onScratch (field.sub b e)
  let g ← onScratch (field.addInPlace b e)
  let leftSum ← onScratch (field.add left.x left.y)
  let rightSum ← onScratch (field.add right.x right.y)
  let h ← onScratch (field.multiply leftSum rightSum)
  let mixed ← onScratch (field.subInPlace h c)
  let mixed ← onScratch (field.subInPlace mixed d)
  let af ← onScratch (field.multiply a f)
  let x ← onScratch (field.multiply af mixed)
  let straight ← onScratch (field.sub d c)
  let ag ← onScratch (field.multiply a g)
  let y ← onScratch (field.multiply ag straight)
  let z ← onScratch (field.multiply f g)
  modify fun workplace =>
    { workplace with
      a := y
      b := g
      c := c
      d := d
      e := ag
      f := f }
  return { x := x, y := y, z := z }

/-- The double of a point. -/
def double
    (curve : CurveContext)
    (point : Coordinates) :
    WorkplaceM Coordinates := do
  let field := curve.field
  let sum ← onScratch (field.add point.x point.y)
  let b ← onScratch (field.square sum)
  let c ← onScratch (field.square point.x)
  let d ← onScratch (field.square point.y)
  let e ← onScratch (field.add c d)
  let zz ← onScratch (field.square point.z)
  let twiceZz ← onScratch (field.add zz zz)
  let j ← onScratch (field.sub e twiceZz)
  let mixed ← onScratch (field.sub b e)
  let x ← onScratch (field.multiply mixed j)
  let straight ← onScratch (field.sub c d)
  let y ← onScratch (field.multiply e straight)
  let z ← onScratch (field.multiply e j)
  modify fun workplace =>
    { workplace with
      a := straight
      b := b
      c := c
      d := d
      e := e
      f := j }
  return { x := x, y := y, z := z }

/-- The negation of a point. -/
def neg
    (curve : CurveContext)
    (point : Coordinates) :
    WorkplaceM Coordinates := do
  let x := curve.field.neg point.x
  modify fun workplace => { workplace with a := x }
  return { point with x := x }

end CurveContext

end ModularLadder.Ed448
