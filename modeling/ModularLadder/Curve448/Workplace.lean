import ModularLadder.Field448

/-!
# The temporaries of a climb on Curve448

A point on Curve448 carries the storage that its ladder needs, so that no
storage has to be found while a secret scalar is at work.  Whatever an earlier
climb has left there is overwritten before it is read.
-/

namespace ModularLadder.Curve448

open Montgomery (Context Scratch)

/-- Temporaries of a climb. -/
structure Workplace where
  a : Words
  b : Words
  c : Words
  d : Words
  e : Words
  f : Words
  /-- The affine x-coordinate of the base of the climb. -/
  x1 : Words
  /-- The numerator of the upper point. -/
  x3 : Words
  /-- The denominator of the upper point. -/
  z3 : Words
  scratch : Scratch

/-- Fresh temporaries. -/
def Workplace.fresh (field : Context) : Workplace :=
  { a := field.zero
    b := field.zero
    c := field.zero
    d := field.zero
    e := field.zero
    f := field.zero
    x1 := field.zero
    x3 := field.zero
    z3 := field.zero
    scratch := Scratch.ofWidth field.width }

/-- A computation that uses the temporaries. -/
abbrev WorkplaceM := StateM Workplace

instance : Field448.HoldsScratch Workplace where
  scratch workplace := workplace.scratch
  putScratch scratch workplace := { workplace with scratch := scratch }

end ModularLadder.Curve448
