/-!
# Ten limbs

A number of about 255 bits is written in ten limbs of alternately 26 and 25
bits.  The limb with index `i` has weight `2 ^ ceil(25.5 * i)`.  Limbs may
exceed their nominal width, so that a number has many representations.

The same ten places hold the 32-bit limbs of stored elements, the 64-bit
accumulators of products, and plain numbers in statements about either.
-/

namespace ModularLadder.Field25519

/-- Ten values, one for each limb. -/
structure TenLimbs (α : Type) where
  l0 : α
  l1 : α
  l2 : α
  l3 : α
  l4 : α
  l5 : α
  l6 : α
  l7 : α
  l8 : α
  l9 : α
  deriving DecidableEq, Repr

namespace TenLimbs

variable {α β γ : Type}

/-- Applies a function to every limb. -/
def map (f : α → β) (x : TenLimbs α) : TenLimbs β :=
  { l0 := f x.l0
    l1 := f x.l1
    l2 := f x.l2
    l3 := f x.l3
    l4 := f x.l4
    l5 := f x.l5
    l6 := f x.l6
    l7 := f x.l7
    l8 := f x.l8
    l9 := f x.l9 }

/-- Combines the limbs of two numbers place by place. -/
def zipWith (f : α → β → γ) (x : TenLimbs α) (y : TenLimbs β) : TenLimbs γ :=
  { l0 := f x.l0 y.l0
    l1 := f x.l1 y.l1
    l2 := f x.l2 y.l2
    l3 := f x.l3 y.l3
    l4 := f x.l4 y.l4
    l5 := f x.l5 y.l5
    l6 := f x.l6 y.l6
    l7 := f x.l7 y.l7
    l8 := f x.l8 y.l8
    l9 := f x.l9 y.l9 }

/-- The limbs in order of their weights. -/
def toList (x : TenLimbs α) : List α :=
  [x.l0, x.l1, x.l2, x.l3, x.l4, x.l5, x.l6, x.l7, x.l8, x.l9]

/-- The limbs given in order of their weights, if there are ten of them. -/
def ofList? : List α → Option (TenLimbs α)
  | [l0, l1, l2, l3, l4, l5, l6, l7, l8, l9] =>
    some { l0, l1, l2, l3, l4, l5, l6, l7, l8, l9 }
  | _ => none

/-- The number that limbs stand for by their weights. -/
def weighted (x : TenLimbs Nat) : Nat :=
  x.l0 + (1 <<< 26) * x.l1 + (1 <<< 51) * x.l2 + (1 <<< 77) * x.l3 +
    (1 <<< 102) * x.l4 + (1 <<< 128) * x.l5 + (1 <<< 153) * x.l6 +
    (1 <<< 179) * x.l7 + (1 <<< 204) * x.l8 + (1 <<< 230) * x.l9

/-- Every limb with an even index satisfies one property, the others another. -/
def Alternating (even odd : α → Prop) (x : TenLimbs α) : Prop :=
  even x.l0 ∧ odd x.l1 ∧ even x.l2 ∧ odd x.l3 ∧ even x.l4 ∧
    odd x.l5 ∧ even x.l6 ∧ odd x.l7 ∧ even x.l8 ∧ odd x.l9

instance
    (even odd : α → Prop)
    [DecidablePred even]
    [DecidablePred odd]
    (x : TenLimbs α) :
    Decidable (Alternating even odd x) :=
  inferInstanceAs (Decidable (_ ∧ _))

end TenLimbs

end ModularLadder.Field25519
