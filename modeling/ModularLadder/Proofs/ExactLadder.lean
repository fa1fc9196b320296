import Mathlib

/-!
# The ladder in exact arithmetic

The ladder on a Montgomery curve, over any commutative ring and for any
constant `a24`.  It holds the x-coordinates of two points as fractions
`X / Z`, starts with `1 / 0` and `x1 / 1` and climbs along the bits of a
scalar, most significant first.  The two points are exchanged whenever a bit
differs from the preceding one and once more in the end.

Exchanging the points before and after every step that a set bit asks for
comes to the same, and is easier to reason about.
-/

namespace ModularLadder.ExactLadder

/-- The projective x-coordinates of two points. -/
structure Rungs (R : Type*) where
  x2 : R
  z2 : R
  x3 : R
  z3 : R

/-- The two points, and whether they are exchanged. -/
structure Climb (R : Type*) where
  rungs : Rungs R
  exchanged : Bool

namespace Rungs

/-- Exchanges the two points under a condition. -/
def swapIf {R : Type*} (condition : Bool) (rungs : Rungs R) : Rungs R :=
  if condition then
    { x2 := rungs.x3, z2 := rungs.z3, x3 := rungs.x2, z3 := rungs.z2 }
  else
    rungs

theorem swapIf_swapIf
    {R : Type*}
    (first second : Bool)
    (rungs : Rungs R) :
    (rungs.swapIf first).swapIf second = rungs.swapIf (first ^^ second) := by
  cases first <;> cases second <;> rfl

end Rungs

variable
  {R : Type*}
  [CommRing R]

namespace Rungs

/-- The first point is doubled and the second one becomes the sum of both. -/
def step (a24 x1 : R) (rungs : Rungs R) : Rungs R :=
  let a := rungs.x2 + rungs.z2
  let aa := a ^ 2
  let b := rungs.x2 - rungs.z2
  let bb := b ^ 2
  let e := aa - bb
  let c := rungs.x3 + rungs.z3
  let d := rungs.x3 - rungs.z3
  let da := d * a
  let cb := c * b
  { x2 := aa * bb
    z2 := e * (aa + a24 * e)
    x3 := (da + cb) ^ 2
    z3 := x1 * (da - cb) ^ 2 }

/-- The point at infinity and the base point. -/
def start (x1 : R) : Rungs R :=
  { x2 := 1
    z2 := 0
    x3 := x1
    z3 := 1 }

/-- A step between two exchanges. -/
def bit (a24 x1 : R) (rungs : Rungs R) (condition : Bool) : Rungs R :=
  ((rungs.swapIf condition).step a24 x1).swapIf condition

end Rungs

namespace Climb

/-- One bit of the scalar. -/
def next (a24 x1 : R) (climb : Climb R) (bit : Bool) : Climb R :=
  { rungs := (climb.rungs.swapIf (climb.exchanged ^^ bit)).step a24 x1
    exchanged := bit }

/-- The climb along bits from the start. -/
def along (a24 x1 : R) (bits : List Bool) : Climb R :=
  bits.foldl (next a24 x1) { rungs := Rungs.start x1, exchanged := false }

/-- The points of a climb in their proper order. -/
def finish (climb : Climb R) : Rungs R :=
  climb.rungs.swapIf climb.exchanged

end Climb

/-- The outcome of the ladder along the bits of a scalar. -/
def ladder (a24 x1 : R) (bits : List Bool) : Rungs R :=
  (Climb.along a24 x1 bits).finish

/-- One bit of a climb, seen with the points in their proper order. -/
theorem Climb.finish_next
    (a24 x1 : R)
    (climb : Climb R)
    (bit : Bool) :
    (climb.next a24 x1 bit).finish = climb.finish.bit a24 x1 bit := by
  rw [next, finish, finish, Rungs.bit, Rungs.swapIf_swapIf]

/-- The ladder as steps between two exchanges each. -/
theorem ladder_eq
    (a24 x1 : R)
    (bits : List Bool) :
    ladder a24 x1 bits = bits.foldl (Rungs.bit a24 x1) (Rungs.start x1) := by
  have run (climb : Climb R) :
      (bits.foldl (Climb.next a24 x1) climb).finish =
        bits.foldl (Rungs.bit a24 x1) climb.finish := by
    induction bits generalizing climb with
    | nil => rfl
    | cons bit bits ih =>
      rw [List.foldl_cons, List.foldl_cons, ih, Climb.finish_next]
  exact run _

section

variable
  {S : Type*}
  [CommRing S]
  (f : R →+* S)

/-- The coordinates seen in another ring. -/
def Rungs.map (rungs : Rungs R) : Rungs S :=
  { x2 := f rungs.x2
    z2 := f rungs.z2
    x3 := f rungs.x3
    z3 := f rungs.z3 }

theorem Rungs.map_bit
    (a24 x1 : R)
    (rungs : Rungs R)
    (condition : Bool) :
    (rungs.bit a24 x1 condition).map f =
      (rungs.map f).bit (f a24) (f x1) condition := by
  cases condition <;> simp [bit, step, swapIf, map]

/-- The ladder in a ring is seen as the ladder in another ring. -/
theorem map_ladder
    (a24 x1 : R)
    (bits : List Bool) :
    (ladder a24 x1 bits).map f = ladder (f a24) (f x1) bits := by
  have run (rungs : Rungs R) :
      (bits.foldl (Rungs.bit a24 x1) rungs).map f =
        bits.foldl (Rungs.bit (f a24) (f x1)) (rungs.map f) := by
    induction bits generalizing rungs with
    | nil => rfl
    | cons bit bits ih =>
      rw [List.foldl_cons, List.foldl_cons, ih, Rungs.map_bit]
  have start : (Rungs.start x1).map f = Rungs.start (f x1) := by
    simp [Rungs.start, Rungs.map]
  rw [ladder_eq, ladder_eq, run, start]

end

end ModularLadder.ExactLadder
