import Mathlib
import ModularLadder.Proofs.Field25519.Overflow

/-!
# The least number of an element

Limbs of nominal width stand for a number below `2^255`, which is below twice
the modulus.  Whether the modulus has to be subtracted is told by the carry
past bit 255 of the sum with 19, and the subtraction is the addition of 19
without that carry.
-/

namespace ModularLadder.Field25519

namespace TenLimbs

/-- The carries leave the highest limb as the number divided by `2^255`. -/
theorem excess_eq
    (h : TenLimbs Nat) :
    h.excess = (h.weighted + 19) / 2 ^ 255 := by
  simp only [excess, weighted_eq, Nat.shiftRight_eq_div_pow]
  omega

/-- Adding keeps the number modulo `2^255`. -/
theorem weighted_addAndWrap
    (h : TenLimbs Nat)
    (addend : Nat) :
    (h.addAndWrap addend).weighted = (h.weighted + addend) % 2 ^ 255 := by
  simp only [addAndWrap, weighted_eq, low26_eq, low25_eq,
    Nat.shiftRight_eq_div_pow]
  omega

theorem addAndWrap_below
    (h : TenLimbs Nat)
    (addend : Nat) :
    (h.addAndWrap addend).Below (2 ^ 26) (2 ^ 25) := by
  simp only [addAndWrap, low26_eq, low25_eq]
  refine ⟨?_, ?_, ?_, ?_, ?_, ?_, ?_, ?_, ?_, ?_⟩ <;>
    exact Nat.mod_lt _ (by decide)

/-- The subtraction leaves the least number with the value modulo `p`. -/
theorem weighted_subtractPrime
    {h : TenLimbs Nat}
    (below : h.Below (2 ^ 26) (2 ^ 25)) :
    h.subtractPrime.weighted = h.weighted % prime := by
  have bound := weighted_lt below
  have modulus := prime_add
  rw [subtractPrime, weighted_addAndWrap, excess_eq]
  by_cases less : h.weighted < prime
  · have none : (h.weighted + 19) / 2 ^ 255 = 0 :=
      Nat.div_eq_of_lt (by omega)
    rw [none, Nat.mul_zero, Nat.add_zero, Nat.mod_eq_of_lt bound,
      Nat.mod_eq_of_lt less]
  · have once : (h.weighted + 19) / 2 ^ 255 = 1 :=
      Nat.div_eq_of_lt_le (by omega) (by omega)
    have wrapped : h.weighted + 19 = h.weighted - prime + 2 ^ 255 := by
      omega
    rw [once, Nat.mul_one, wrapped, Nat.add_mod_right,
      Nat.mod_eq_of_lt (by omega), Nat.mod_eq_sub_mod (Nat.not_lt.1 less),
      Nat.mod_eq_of_lt (by omega)]

end TenLimbs

/-- A carry of limbs of nominal width is one or zero. -/
theorem carry_agree
    {left right : Checked 32}
    {leftWord rightWord : UInt32}
    {limb carry : Nat}
    (first : Agrees left leftWord limb)
    (second : Agrees right rightWord carry)
    (amount : Nat)
    (small : amount < 32)
    (wide : 19 ≤ 2 ^ amount)
    (limb_lt : limb < 2 ^ amount)
    (carry_le : carry ≤ 19) :
    Agrees ((left + right) >>> (OfNat.ofNat amount : Checked 32))
        ((leftWord + rightWord) >>> (OfNat.ofNat amount : UInt32))
        ((limb + carry) >>> amount) ∧
      (limb + carry) >>> amount ≤ 1 := by
  have weight : 2 ^ amount ≤ 2 ^ 31 :=
    Nat.pow_le_pow_right (by decide) (by omega)
  constructor
  · apply (first.add second _).shiftRight amount small
    omega
  · rw [Nat.shiftRight_eq_div_pow, ← Nat.lt_succ_iff]
    apply Nat.div_lt_of_lt_mul
    omega

section

variable
  {checked : TenLimbs (Checked 32)}
  {words : TenLimbs UInt32}
  {numbers : TenLimbs Nat}
  (agree : LimbsAgree checked words numbers)
  (below : numbers.Below (2 ^ 26) (2 ^ 25))

include agree below

/-- The carry past bit 255 is found without an overflow. -/
theorem excess_agree :
    Agrees checked.excess words.excess numbers.excess ∧
      numbers.excess ≤ 1 := by
  rcases below with ⟨h0, h1, h2, h3, h4, h5, h6, h7, h8, h9⟩
  have nineteen : Agrees (19 : Checked 32) (19 : UInt32) 19 :=
    Agrees.ofNat 19 (by decide)
  rcases
      carry_agree agree.l0 nineteen 26 (by decide) (by decide) h0 (le_refl 19) with
    ⟨c0, e0⟩
  rcases carry_agree agree.l1 c0 25 (by decide) (by decide) h1 (by omega) with
    ⟨c1, e1⟩
  rcases carry_agree agree.l2 c1 26 (by decide) (by decide) h2 (by omega) with
    ⟨c2, e2⟩
  rcases carry_agree agree.l3 c2 25 (by decide) (by decide) h3 (by omega) with
    ⟨c3, e3⟩
  rcases carry_agree agree.l4 c3 26 (by decide) (by decide) h4 (by omega) with
    ⟨c4, e4⟩
  rcases carry_agree agree.l5 c4 25 (by decide) (by decide) h5 (by omega) with
    ⟨c5, e5⟩
  rcases carry_agree agree.l6 c5 26 (by decide) (by decide) h6 (by omega) with
    ⟨c6, e6⟩
  rcases carry_agree agree.l7 c6 25 (by decide) (by decide) h7 (by omega) with
    ⟨c7, e7⟩
  rcases carry_agree agree.l8 c7 26 (by decide) (by decide) h8 (by omega) with
    ⟨c8, e8⟩
  rcases carry_agree agree.l9 c8 25 (by decide) (by decide) h9 (by omega) with
    ⟨c9, e9⟩
  exact ⟨c9, e9⟩

theorem addAndWrap_agree
    {addend : Checked 32}
    {addendWord : UInt32}
    {addendNumber : Nat}
    (addendAgrees : Agrees addend addendWord addendNumber)
    (addend_le : addendNumber ≤ 19) :
    LimbsAgree (checked.addAndWrap addend) (words.addAndWrap addendWord)
      (numbers.addAndWrap addendNumber) := by
  rcases below with ⟨h0, h1, h2, h3, h4, h5, h6, h7, h8, h9⟩
  have z0 := agree.l0.add addendAgrees (by omega)
  have z1 := agree.l1.carryInto z0 26 (by decide) (by decide) (by omega)
  have z2 := agree.l2.carryInto z1 25 (by decide) (by decide) (by omega)
  have z3 := agree.l3.carryInto z2 26 (by decide) (by decide) (by omega)
  have z4 := agree.l4.carryInto z3 25 (by decide) (by decide) (by omega)
  have z5 := agree.l5.carryInto z4 26 (by decide) (by decide) (by omega)
  have z6 := agree.l6.carryInto z5 25 (by decide) (by decide) (by omega)
  have z7 := agree.l7.carryInto z6 26 (by decide) (by decide) (by omega)
  have z8 := agree.l8.carryInto z7 25 (by decide) (by decide) (by omega)
  have z9 := agree.l9.carryInto z8 26 (by decide) (by decide) (by omega)
  exact
    ⟨z0.low26 (by decide), z1.low25 (by decide), z2.low26 (by decide),
      z3.low25 (by decide), z4.low26 (by decide), z5.low25 (by decide),
      z6.low26 (by decide), z7.low25 (by decide), z8.low26 (by decide),
      z9.low25 (by decide)⟩

theorem subtractPrime_agree :
    LimbsAgree checked.subtractPrime words.subtractPrime
      numbers.subtractPrime := by
  rcases excess_agree agree below with ⟨excess, excess_le⟩
  have nineteen : Agrees (19 : Checked 32) (19 : UInt32) 19 :=
    Agrees.ofNat 19 (by decide)
  apply addAndWrap_agree agree below
  · apply nineteen.mul excess
    omega
  · omega

end

end ModularLadder.Field25519
