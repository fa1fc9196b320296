import Mathlib
import ModularLadder.Proofs.Field25519.Element

/-!
# Reduced limbs are those of nominal width

The documented bound lets an odd limb be `2^25`, one more than its width
holds.  Carrying around never leaves such a limb: if the last fold wraps
something to the lowest limb, then the second one is small, and takes up what
the lowest one cannot hold.

So every reduction ends with limbs of nominal width, which stand for a number
below `2^255`.  These are exactly the limbs that a reduction does not change,
and reducing twice is the same as reducing once.
-/

namespace ModularLadder.Field25519

namespace TenLimbs

theorem low26_of_lt
    {limb : Nat}
    (below : limb < 2 ^ 26) :
    low26 limb = limb := by
  rw [low26_eq, Nat.mod_eq_of_lt below]

theorem low25_of_lt
    {limb : Nat}
    (below : limb < 2 ^ 25) :
    low25 limb = limb := by
  rw [low25_eq, Nat.mod_eq_of_lt below]

section

variable
  {z : TenLimbs Nat}
  (below : z.Below (2 ^ 26) (2 ^ 25))

include below

/-- Limbs of nominal width have no excess to be moved up. -/
theorem sweep_eq_self :
    z.sweep = z := by
  rcases below with ⟨h0, h1, h2, h3, h4, h5, h6, h7, h8, h9⟩
  simp only [sweep, Nat.shiftRight_eq_zero _ _ h0,
    Nat.shiftRight_eq_zero _ _ h1, Nat.shiftRight_eq_zero _ _ h2,
    Nat.shiftRight_eq_zero _ _ h3, Nat.shiftRight_eq_zero _ _ h4,
    Nat.shiftRight_eq_zero _ _ h5, Nat.shiftRight_eq_zero _ _ h6,
    Nat.shiftRight_eq_zero _ _ h7, Nat.shiftRight_eq_zero _ _ h8,
    Nat.add_zero, low26_of_lt h0, low25_of_lt h1, low26_of_lt h2,
    low25_of_lt h3, low26_of_lt h4, low25_of_lt h5, low26_of_lt h6,
    low25_of_lt h7, low26_of_lt h8]

theorem fold_eq_self :
    z.fold = z := by
  rcases below with ⟨-, -, -, -, -, -, -, -, -, h9⟩
  simp only [fold, Nat.shiftRight_eq_zero _ _ h9, Nat.mul_zero, Nat.add_zero,
    low25_of_lt h9]

theorem settle_eq_self :
    z.settle = z := by
  rcases below with ⟨h0, -⟩
  simp only [settle, Nat.shiftRight_eq_zero _ _ h0, Nat.add_zero,
    low26_of_lt h0]

/-- Nothing moves when limbs of nominal width are carried around. -/
theorem carryAround_eq_self :
    z.carryAround = z := by
  rw [carryAround, sweep_eq_self below, fold_eq_self below,
    sweep_eq_self below, fold_eq_self below, settle_eq_self below]

end

end TenLimbs

namespace Accumulators

/-- The limbs as natural numbers. -/
def limbs (z : Accumulators) : TenLimbs Nat :=
  z.map UInt64.toNat

/-- The limbs as checked numbers. -/
def checked (z : Accumulators) : TenLimbs (Checked 64) :=
  z.map fun limb => ⟨some limb.toNat⟩

/-- The checked form of `reduce`. -/
def reduce? (z : Accumulators) : Option Element :=
  collect z.checked.carryAround

theorem checked_agree
    (z : Accumulators) :
    LimbsAgree z.checked z z.limbs := by
  have rule (limb : UInt64) :
      Agrees (⟨some limb.toNat⟩ : Checked 64) limb limb.toNat :=
    ⟨rfl, rfl, limb.toNat_lt⟩
  exact
    ⟨rule z.l0, rule z.l1, rule z.l2, rule z.l3, rule z.l4, rule z.l5,
      rule z.l6, rule z.l7, rule z.l8, rule z.l9⟩

/-- Limbs below `2^63` are carried around without an overflow. -/
theorem reduce_computes
    {z : Accumulators}
    (below : z.limbs.Below (2 ^ 63) (2 ^ 63)) :
    Computes z.reduce? z.reduce (z.value : Residue) :=
  z.checked_agree.reduce_computes below

end Accumulators

namespace Element

variable {x y : Element}

/-- Elements are the same limb for limb if the numbers in the limbs are. -/
theorem limbs_injective :
    Function.Injective limbs := by
  intro x y same
  cases x
  cases y
  simp only [limbs, TenLimbs.map, TenLimbs.mk.injEq, UInt32.toNat_inj] at same
  rw [TenLimbs.mk.injEq]
  exact same

theorem limbs_reduce
    (x : Element) :
    x.reduce.limbs = x.limbs.carryAround :=
  ((widen_agree x).reduce_exact x.limbs_below).2

/-- Limbs of nominal width stand for a number below `2^255`. -/
theorem Nominal.value_lt
    (nominal : x.Nominal) :
    x.value < 2 ^ 255 :=
  TenLimbs.weighted_lt nominal

/-- The elements that a reduction does not change. -/
theorem reduce_eq_self_iff :
    x.reduce = x ↔ x.Nominal := by
  constructor
  · intro fixed
    rw [← fixed]
    exact (reduce_computes x).nominal
  · intro nominal
    apply limbs_injective
    rw [limbs_reduce, TenLimbs.carryAround_eq_self nominal]

/-- An odd limb of `2^25` is within the documented bound, but not settled. -/
example :
    let x : Element := { zero with l1 := 0x2000000 }
    x.Reduced ∧ x.reduce = { zero with l2 := 1 } := by
  decide

end Element

/--
Limbs below `2^63` are carried around without an overflow, and so are the
32-bit limbs of any element.  Both leave limbs of nominal width and keep the
number modulo `p`, which is then below `2^255`.  A second reduction changes no
limb.
-/
theorem reductions_settle_limbs :
    (∀ z : Accumulators,
      z.limbs.Below (2 ^ 63) (2 ^ 63) →
        Computes z.reduce? z.reduce (z.value : Residue) ∧
          z.reduce.value < 2 ^ 255) ∧
    ∀ x : Element,
      Computes x.reduce? x.reduce x.residue ∧
        x.reduce.value < 2 ^ 255 ∧
        x.reduce.reduce = x.reduce := by
  constructor
  · intro z below
    have computes := Accumulators.reduce_computes below
    exact ⟨computes, computes.nominal.value_lt⟩
  · intro x
    have computes := Element.reduce_computes x
    exact
      ⟨computes, computes.nominal.value_lt,
        Element.reduce_eq_self_iff.2 computes.nominal⟩

/-- The greatest limbs that can be carried around. -/
def greatestAccumulators : Accumulators :=
  { l0 := 0x7fffffffffffffff
    l1 := 0x7fffffffffffffff
    l2 := 0x7fffffffffffffff
    l3 := 0x7fffffffffffffff
    l4 := 0x7fffffffffffffff
    l5 := 0x7fffffffffffffff
    l6 := 0x7fffffffffffffff
    l7 := 0x7fffffffffffffff
    l8 := 0x7fffffffffffffff
    l9 := 0x7fffffffffffffff }

/-- The greatest limbs of 63 and of 32 bits are settled. -/
theorem reductions_settle_limbs_greatest :
    let z := greatestAccumulators
    let x : Element := z.map UInt64.toUInt32
    z.limbs.Below (2 ^ 63) (2 ^ 63) ∧
      z.reduce? = some z.reduce ∧
      z.reduce.Nominal ∧
      z.reduce.value < 2 ^ 255 ∧
      x.reduce.Nominal ∧
      x.reduce.reduce = x.reduce := by
  intro z x
  have below : z.limbs.Below (2 ^ 63) (2 ^ 63) := by
    refine ⟨?_, ?_, ?_, ?_, ?_, ?_, ?_, ?_, ?_, ?_⟩ <;> decide
  rcases reductions_settle_limbs.1 z below with ⟨computes, lt⟩
  rcases reductions_settle_limbs.2 x with ⟨computesNarrow, -, idempotent⟩
  exact
    ⟨below, computes.checked_eq, computes.nominal, lt,
      computesNarrow.nominal, idempotent⟩

end ModularLadder.Field25519
