import Mathlib
import ModularLadder.Field25519.Element

/-!
# Carries, differences and products of natural limbs

On natural numbers the arithmetic of ten limbs is exact.  Sweeping and
settling keep the number that limbs stand for.  Folding takes a multiple of
`p = 2^255 - 19` away, and a product of limbs stands for the product of the
numbers up to such a multiple.

Two rounds of carries suffice for limbs below `2^63`.  The first round leaves
a number not far beyond `2^255`.  If the second one still folds, then almost
nothing is left in the limbs below the highest one, so that the last carry
stops at the second limb.
-/

namespace ModularLadder.Field25519.TenLimbs

/-- Even limbs below one bound and odd limbs below another. -/
def Below (even odd : Nat) (x : TenLimbs Nat) : Prop :=
  x.Alternating (· < even) (· < odd)

theorem Below.mono
    {even odd wideEven wideOdd : Nat}
    {x : TenLimbs Nat}
    (below : x.Below even odd)
    (evenLe : even ≤ wideEven)
    (oddLe : odd ≤ wideOdd) :
    x.Below wideEven wideOdd := by
  rcases below with ⟨h0, h1, h2, h3, h4, h5, h6, h7, h8, h9⟩
  exact
    ⟨h0.trans_le evenLe, h1.trans_le oddLe, h2.trans_le evenLe,
      h3.trans_le oddLe, h4.trans_le evenLe, h5.trans_le oddLe,
      h6.trans_le evenLe, h7.trans_le oddLe, h8.trans_le evenLe,
      h9.trans_le oddLe⟩

theorem low26_eq
    (limb : Nat) :
    low26 limb = limb % 2 ^ 26 :=
  Nat.and_two_pow_sub_one_eq_mod limb 26

theorem low25_eq
    (limb : Nat) :
    low25 limb = limb % 2 ^ 25 :=
  Nat.and_two_pow_sub_one_eq_mod limb 25

theorem weighted_eq
    (x : TenLimbs Nat) :
    x.weighted =
      x.l0 + 2 ^ 26 * x.l1 + 2 ^ 51 * x.l2 + 2 ^ 77 * x.l3 +
        2 ^ 102 * x.l4 + 2 ^ 128 * x.l5 + 2 ^ 153 * x.l6 +
        2 ^ 179 * x.l7 + 2 ^ 204 * x.l8 + 2 ^ 230 * x.l9 :=
  rfl

theorem prime_add :
    prime + 19 = 2 ^ 255 := by
  decide

/-- Limbs of nominal width stand for a number below `2^255`. -/
theorem weighted_lt
    {x : TenLimbs Nat}
    (below : x.Below (2 ^ 26) (2 ^ 25)) :
    x.weighted < 2 ^ 255 := by
  rcases below with ⟨h0, h1, h2, h3, h4, h5, h6, h7, h8, h9⟩
  rw [weighted_eq]
  omega

/-- Moving carries up does not change the number. -/
theorem weighted_sweep
    (z : TenLimbs Nat) :
    z.sweep.weighted = z.weighted := by
  simp only [weighted_eq, sweep, low26_eq, low25_eq,
    Nat.shiftRight_eq_div_pow]
  omega

theorem weighted_settle
    (z : TenLimbs Nat) :
    z.settle.weighted = z.weighted := by
  simp only [weighted_eq, settle, low26_eq, Nat.shiftRight_eq_div_pow]
  omega

/-- Folding takes the modulus away once for each `2^255` in the number. -/
theorem weighted_fold
    (z : TenLimbs Nat) :
    z.fold.weighted + prime * (z.l9 / 2 ^ 25) = z.weighted := by
  have modulus := prime_add
  simp only [weighted_eq, fold, low25_eq, Nat.shiftRight_eq_div_pow]
  have split := Nat.div_add_mod z.l9 (2 ^ 25)
  have scaled :
      prime * (z.l9 / 2 ^ 25) + 19 * (z.l9 / 2 ^ 25) =
        2 ^ 255 * (z.l9 / 2 ^ 25) := by
    rw [← Nat.add_mul, modulus]
  omega

theorem weighted_fold_modEq
    (z : TenLimbs Nat) :
    z.fold.weighted ≡ z.weighted [MOD prime] := by
  rw [← weighted_fold z]
  exact (Nat.add_mul_mod_self_left _ _ _).symm

/--
The limbs after a sweep: all but the highest one have their nominal width.
-/
structure Swept (z : TenLimbs Nat) : Prop where
  l0 : z.l0 < 2 ^ 26
  l1 : z.l1 < 2 ^ 25
  l2 : z.l2 < 2 ^ 26
  l3 : z.l3 < 2 ^ 25
  l4 : z.l4 < 2 ^ 26
  l5 : z.l5 < 2 ^ 25
  l6 : z.l6 < 2 ^ 26
  l7 : z.l7 < 2 ^ 25
  l8 : z.l8 < 2 ^ 26

theorem swept_sweep
    (z : TenLimbs Nat) :
    z.sweep.Swept := by
  constructor <;>
    (simp only [sweep, low26_eq, low25_eq]
     exact Nat.mod_lt _ (by decide))

theorem sweep_l9_lt
    {z : TenLimbs Nat}
    (below : z.Below (2 ^ 63) (2 ^ 63)) :
    z.sweep.l9 < 2 ^ 64 := by
  rcases below with ⟨h0, h1, h2, h3, h4, h5, h6, h7, h8, h9⟩
  simp only [sweep, Nat.shiftRight_eq_div_pow]
  omega

/-- The limbs after the first round of carries. -/
theorem firstRound_below
    {z : TenLimbs Nat}
    (below : z.Below (2 ^ 63) (2 ^ 63)) :
    z.sweep.fold.Below (2 ^ 44) (2 ^ 25) := by
  have swept := swept_sweep z
  have highest := sweep_l9_lt below
  rcases swept with ⟨h0, h1, h2, h3, h4, h5, h6, h7, h8⟩
  refine ⟨?_, h1, ?_, h3, ?_, h5, ?_, h7, ?_, ?_⟩
  · simp only [fold, Nat.shiftRight_eq_div_pow]
    omega
  · exact h2.trans_le (by decide)
  · exact h4.trans_le (by decide)
  · exact h6.trans_le (by decide)
  · exact h8.trans_le (by decide)
  · simp only [fold, low25_eq]
    exact Nat.mod_lt _ (by decide)

/-- The number after the first round is not far beyond `2^255`. -/
theorem firstRound_lt
    {z : TenLimbs Nat}
    (below : z.Below (2 ^ 63) (2 ^ 63)) :
    z.sweep.fold.weighted < 2 ^ 255 + 2 ^ 45 := by
  rcases firstRound_below below with ⟨h0, h1, _, h3, _, h5, _, h7, _, h9⟩
  rcases swept_sweep z with ⟨_, _, h2, _, h4, _, h6, _, h8⟩
  change z.sweep.fold.l2 < _ at h2
  change z.sweep.fold.l4 < _ at h4
  change z.sweep.fold.l6 < _ at h6
  change z.sweep.fold.l8 < _ at h8
  rw [weighted_eq]
  omega

/--
Settling after the second round leaves limbs of nominal width.  If the lowest
limb overflows, then because of a fold, and the second limb is small.
-/
theorem settle_below
    {u : TenLimbs Nat}
    (swept : u.Swept)
    (number_lt : u.weighted < 2 ^ 255 + 2 ^ 45) :
    u.fold.settle.Below (2 ^ 26) (2 ^ 25) := by
  rcases swept with ⟨h0, h1, h2, h3, h4, h5, h6, h7, h8⟩
  rw [weighted_eq] at number_lt
  have once : u.l9 / 2 ^ 25 ≤ 1 := by omega
  have small : u.l9 / 2 ^ 25 = 1 → u.l1 < 2 ^ 20 := by omega
  have highest : u.l9 % 2 ^ 25 < 2 ^ 25 := Nat.mod_lt _ (by decide)
  simp only [Below, Alternating, settle, fold, low26_eq, low25_eq,
    Nat.shiftRight_eq_div_pow]
  refine ⟨Nat.mod_lt _ (by decide), ?_, h2, h3, h4, h5, h6, h7, h8, highest⟩
  rcases Nat.le_one_iff_eq_zero_or_eq_one.1 once with none | one
  · rw [none]
    omega
  · have second := small one
    rw [one]
    omega

/-- Two rounds of carries leave limbs of nominal width. -/
theorem carryAround_below
    {z : TenLimbs Nat}
    (below : z.Below (2 ^ 63) (2 ^ 63)) :
    z.carryAround.Below (2 ^ 26) (2 ^ 25) := by
  apply settle_below (swept_sweep z.sweep.fold)
  rw [weighted_sweep]
  exact firstRound_lt below

/-- Moving the carries around keeps the number modulo `p`. -/
theorem weighted_carryAround
    (z : TenLimbs Nat) :
    z.carryAround.weighted ≡ z.weighted [MOD prime] := by
  rw [carryAround, weighted_settle]
  have second := weighted_fold_modEq z.sweep.fold.sweep
  have first := weighted_fold_modEq z.sweep
  rw [weighted_sweep] at first second
  exact second.trans first

theorem weighted_sum
    (x y : TenLimbs Nat) :
    (x.sum y).weighted = x.weighted + y.weighted := by
  simp only [sum, zipWith, weighted_eq]
  ring

theorem weighted_fourPrimes :
    (fourPrimes : TenLimbs Nat).weighted = 4 * prime := by
  decide

/-- A raised difference is the difference and four times the modulus. -/
theorem weighted_raisedDifference
    {x y : TenLimbs Nat}
    (below : y.Below (2 ^ 27) (2 ^ 26 + 2 ^ 6)) :
    (x.raisedDifference y).weighted + y.weighted =
      x.weighted + 4 * prime := by
  rcases below with ⟨h0, h1, h2, h3, h4, h5, h6, h7, h8, h9⟩
  rw [← weighted_fourPrimes]
  simp only [raisedDifference, fourPrimes, zipWith, weighted_eq]
  omega

theorem raisedDifference_below
    {x y : TenLimbs Nat}
    (below : x.Below (2 ^ 27) (2 ^ 26 + 2 ^ 6)) :
    (x.raisedDifference y).Below (2 ^ 63) (2 ^ 63) := by
  rcases below with ⟨h0, h1, h2, h3, h4, h5, h6, h7, h8, h9⟩
  simp only [Below, Alternating, raisedDifference, fourPrimes, zipWith]
  omega

theorem weighted_scaled
    (x : TenLimbs Nat)
    (factor : Nat) :
    (x.map (· * factor)).weighted = x.weighted * factor := by
  simp only [map, weighted_eq]
  ring

/-- The part of a product that does not pass the highest place. -/
def lowProduct (a b : TenLimbs Nat) : TenLimbs Nat :=
  { l0 := a.l0 * b.l0
    l1 := a.l0 * b.l1 + a.l1 * b.l0
    l2 := a.l0 * b.l2 + 2 * a.l1 * b.l1 + a.l2 * b.l0
    l3 := a.l0 * b.l3 + a.l1 * b.l2 + a.l2 * b.l1 + a.l3 * b.l0
    l4 :=
      a.l0 * b.l4 + 2 * a.l1 * b.l3 + a.l2 * b.l2 + 2 * a.l3 * b.l1 +
        a.l4 * b.l0
    l5 :=
      a.l0 * b.l5 + a.l1 * b.l4 + a.l2 * b.l3 + a.l3 * b.l2 +
        a.l4 * b.l1 + a.l5 * b.l0
    l6 :=
      a.l0 * b.l6 + 2 * a.l1 * b.l5 + a.l2 * b.l4 + 2 * a.l3 * b.l3 +
        a.l4 * b.l2 + 2 * a.l5 * b.l1 + a.l6 * b.l0
    l7 :=
      a.l0 * b.l7 + a.l1 * b.l6 + a.l2 * b.l5 + a.l3 * b.l4 +
        a.l4 * b.l3 + a.l5 * b.l2 + a.l6 * b.l1 + a.l7 * b.l0
    l8 :=
      a.l0 * b.l8 + 2 * a.l1 * b.l7 + a.l2 * b.l6 + 2 * a.l3 * b.l5 +
        a.l4 * b.l4 + 2 * a.l5 * b.l3 + a.l6 * b.l2 +
        2 * a.l7 * b.l1 + a.l8 * b.l0
    l9 :=
      a.l0 * b.l9 + a.l1 * b.l8 + a.l2 * b.l7 + a.l3 * b.l6 +
        a.l4 * b.l5 + a.l5 * b.l4 + a.l6 * b.l3 + a.l7 * b.l2 +
        a.l8 * b.l1 + a.l9 * b.l0 }

/-- The part of a product past the highest place, in units of `2^255`. -/
def highProduct (a b : TenLimbs Nat) : TenLimbs Nat :=
  { l0 :=
      2 * a.l1 * b.l9 + a.l2 * b.l8 + 2 * a.l3 * b.l7 + a.l4 * b.l6 +
        2 * a.l5 * b.l5 + a.l6 * b.l4 + 2 * a.l7 * b.l3 + a.l8 * b.l2 +
        2 * a.l9 * b.l1
    l1 :=
      a.l2 * b.l9 + a.l3 * b.l8 + a.l4 * b.l7 + a.l5 * b.l6 +
        a.l6 * b.l5 + a.l7 * b.l4 + a.l8 * b.l3 + a.l9 * b.l2
    l2 :=
      2 * a.l3 * b.l9 + a.l4 * b.l8 + 2 * a.l5 * b.l7 + a.l6 * b.l6 +
        2 * a.l7 * b.l5 + a.l8 * b.l4 + 2 * a.l9 * b.l3
    l3 :=
      a.l4 * b.l9 + a.l5 * b.l8 + a.l6 * b.l7 + a.l7 * b.l6 +
        a.l8 * b.l5 + a.l9 * b.l4
    l4 :=
      2 * a.l5 * b.l9 + a.l6 * b.l8 + 2 * a.l7 * b.l7 + a.l8 * b.l6 +
        2 * a.l9 * b.l5
    l5 := a.l6 * b.l9 + a.l7 * b.l8 + a.l8 * b.l7 + a.l9 * b.l6
    l6 := 2 * a.l7 * b.l9 + a.l8 * b.l8 + 2 * a.l9 * b.l7
    l7 := a.l8 * b.l9 + a.l9 * b.l8
    l8 := 2 * a.l9 * b.l9
    l9 := 0 }

theorem weighted_mul_weighted
    (a b : TenLimbs Nat) :
    a.weighted * b.weighted =
      (lowProduct a b).weighted + 2 ^ 255 * (highProduct a b).weighted := by
  simp only [weighted_eq, lowProduct, highProduct]
  ring

theorem weighted_product_eq
    (a b : TenLimbs Nat) :
    (product a b).weighted =
      (lowProduct a b).weighted + 19 * (highProduct a b).weighted := by
  simp only [weighted_eq, product, lowProduct, highProduct]
  ring

/-- A product of limbs stands for the product of the numbers. -/
theorem weighted_product
    (a b : TenLimbs Nat) :
    (product a b).weighted ≡ a.weighted * b.weighted [MOD prime] := by
  have wrapped :
      a.weighted * b.weighted =
        (product a b).weighted + prime * (highProduct a b).weighted := by
    rw [weighted_mul_weighted, weighted_product_eq, ← prime_add]
    ring
  rw [wrapped]
  exact (Nat.add_mul_mod_self_left _ _ _).symm

end ModularLadder.Field25519.TenLimbs
