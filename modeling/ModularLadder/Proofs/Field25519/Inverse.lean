import Mathlib
import ModularLadder.Field25519.Inverse
import ModularLadder.Proofs.Field25519.Element

/-!
# The chain of powers to the inverse

Every link of the chain is a power of the element, by an exponent that the
links before it determine.  The last one has the exponent `p - 2`.  Along the
chain all operands are within their bounds, so that nothing overflows.

Since `p` is prime, that power inverts every element with a value that is not
a multiple of `p`.  The others, `p` itself among them, all lead to zero.
-/

namespace ModularLadder.Field25519.Element

/-- The links of a chain in order. -/
def InversionChain.links (chain : InversionChain) : List Element :=
  [chain.nine, chain.eleven, chain.run5, chain.run10, chain.run20,
    chain.run40, chain.run50, chain.run100, chain.run200, chain.run250]

/-- A run of the checked chain, squared a number of times and multiplied. -/
def join? (run : Element) (count : Nat) (next : Element) : Option Element := do
  let raised ← squareTimes? count run
  mul? raised next

/-- The checked form of `inversionChain`. -/
def inversionChain? (x : Element) : Option InversionChain := do
  let two ← square? x
  let nine ← join? two 2 x
  let eleven ← mul? nine two
  let run5 ← join? eleven 1 nine
  let run10 ← join? run5 5 run5
  let run20 ← join? run10 10 run10
  let run40 ← join? run20 20 run20
  let run50 ← join? run40 10 run10
  let run100 ← join? run50 50 run50
  let run200 ← join? run100 100 run100
  let run250 ← join? run200 50 run50
  some
    { nine, eleven, run5, run10, run20, run40, run50, run100, run200,
      run250 }

/-- The checked form of `inverse`. -/
def inverse? (x : Element) : Option Element := do
  let chain ← inversionChain? x
  join? chain.run250 5 chain.eleven

/-- An element of nominal limbs that is a power of the given residue. -/
structure Link
    (base : Residue)
    (exponent : Nat)
    (x : Element) :
    Prop where
  nominal : x.Nominal
  residue_eq : x.residue = base ^ exponent

section

variable
  {base : Residue}
  {m n : Nat}
  {x y : Element}

theorem Link.loose
    (link : Link base m x) :
    x.Loose :=
  link.nominal.reduced.loose

theorem Link.reduced_squareTimes
    (link : Link base m x)
    (count : Nat) :
    (x.squareTimes count).Reduced :=
  (squareTimes_computes link.nominal count).reduced

/-- Joining a run with another link adds up their exponents in order. -/
theorem Link.join
    (run : Link base m x)
    (count : Nat)
    (loose : y.Loose)
    (power : y.residue = base ^ n) :
    join? x count y = some ((x.squareTimes count).mul y) ∧
      Link base (m * 2 ^ count + n) ((x.squareTimes count).mul y) := by
  have raised := squareTimes_computes run.nominal count
  have joined := mul_computes raised.loose loose
  constructor
  · rw [join?, raised.bind]
    exact joined.checked_eq
  · refine ⟨joined.nominal, ?_⟩
    rw [joined.residue_eq, raised.residue_eq, run.residue_eq, power,
      ← pow_mul, ← pow_add]

/-- The equations of the chain. -/
structure Chained (x : Element) (chain : InversionChain) : Prop where
  nine : chain.nine = (x.square.squareTimes 2).mul x
  eleven : chain.eleven = chain.nine.mul x.square
  run5 : chain.run5 = (chain.eleven.squareTimes 1).mul chain.nine
  run10 : chain.run10 = (chain.run5.squareTimes 5).mul chain.run5
  run20 : chain.run20 = (chain.run10.squareTimes 10).mul chain.run10
  run40 : chain.run40 = (chain.run20.squareTimes 20).mul chain.run20
  run50 : chain.run50 = (chain.run40.squareTimes 10).mul chain.run10
  run100 : chain.run100 = (chain.run50.squareTimes 50).mul chain.run50
  run200 : chain.run200 = (chain.run100.squareTimes 100).mul chain.run100
  run250 : chain.run250 = (chain.run200.squareTimes 50).mul chain.run50

theorem chained_inversionChain
    (x : Element) :
    Chained x x.inversionChain :=
  ⟨rfl, rfl, rfl, rfl, rfl, rfl, rfl, rfl, rfl, rfl⟩

/-- The exponents of the chain. -/
structure Powers (base : Residue) (chain : InversionChain) : Prop where
  nine : Link base 9 chain.nine
  eleven : Link base 11 chain.eleven
  run5 : Link base (2 ^ 5 - 1) chain.run5
  run10 : Link base (2 ^ 10 - 1) chain.run10
  run20 : Link base (2 ^ 20 - 1) chain.run20
  run40 : Link base (2 ^ 40 - 1) chain.run40
  run50 : Link base (2 ^ 50 - 1) chain.run50
  run100 : Link base (2 ^ 100 - 1) chain.run100
  run200 : Link base (2 ^ 200 - 1) chain.run200
  run250 : Link base (2 ^ 250 - 1) chain.run250

/-- Every link is reduced, however often it is squared. -/
theorem Powers.reduced_squareTimes
    {chain : InversionChain}
    (powers : Powers base chain) :
    ∀ link ∈ chain.links, ∀ count, (link.squareTimes count).Reduced := by
  simp only [InversionChain.links, List.forall_mem_cons]
  exact
    ⟨powers.nine.reduced_squareTimes, powers.eleven.reduced_squareTimes,
      powers.run5.reduced_squareTimes, powers.run10.reduced_squareTimes,
      powers.run20.reduced_squareTimes, powers.run40.reduced_squareTimes,
      powers.run50.reduced_squareTimes, powers.run100.reduced_squareTimes,
      powers.run200.reduced_squareTimes, powers.run250.reduced_squareTimes,
      List.forall_mem_nil _⟩

/-- The square that the chain starts with. -/
theorem link_square
    (loose : x.Loose) :
    Link x.residue 2 x.square := by
  have square := square_computes loose
  exact ⟨square.nominal, square.residue_eq⟩

/-- The chain is computed, and its links have the exponents they should. -/
theorem Chained.powers
    {chain : InversionChain}
    (chained : Chained x chain)
    (loose : x.Loose) :
    inversionChain? x = some chain ∧ Powers x.residue chain := by
  have square := square_computes loose
  have two := link_square loose
  have step {m n count : Nat} {run next link : Element}
      (total : Nat)
      (equation : link = (run.squareTimes count).mul next)
      (power : Link x.residue m run)
      (nextPower : Link x.residue n next)
      (sum : m * 2 ^ count + n = total) :
      join? run count next = some link ∧ Link x.residue total link := by
    rw [equation, ← sum]
    exact power.join count nextPower.loose nextPower.residue_eq
  obtain ⟨nine_eq, nine⟩ : join? x.square 2 x = some chain.nine ∧
      Link x.residue 9 chain.nine := by
    rw [chained.nine]
    exact two.join 2 loose (pow_one x.residue).symm
  have product := mul_computes nine.loose two.loose
  have eleven : Link x.residue 11 chain.eleven := by
    rw [chained.eleven]
    refine ⟨product.nominal, ?_⟩
    rw [product.residue_eq, nine.residue_eq, two.residue_eq, ← pow_add]
  rcases step (2 ^ 5 - 1) chained.run5 eleven nine (by decide) with
    ⟨run5_eq, run5⟩
  rcases step (2 ^ 10 - 1) chained.run10 run5 run5 (by decide) with
    ⟨run10_eq, run10⟩
  rcases step (2 ^ 20 - 1) chained.run20 run10 run10 (by decide) with
    ⟨run20_eq, run20⟩
  rcases step (2 ^ 40 - 1) chained.run40 run20 run20 (by decide) with
    ⟨run40_eq, run40⟩
  rcases step (2 ^ 50 - 1) chained.run50 run40 run10 (by decide) with
    ⟨run50_eq, run50⟩
  rcases step (2 ^ 100 - 1) chained.run100 run50 run50 (by decide) with
    ⟨run100_eq, run100⟩
  rcases step (2 ^ 200 - 1) chained.run200 run100 run100 (by decide) with
    ⟨run200_eq, run200⟩
  rcases step (2 ^ 250 - 1) chained.run250 run200 run50 (by decide) with
    ⟨run250_eq, run250⟩
  constructor
  · rw [inversionChain?, square.bind, bind_result nine_eq, product.bind,
      ← chained.eleven, bind_result run5_eq, bind_result run10_eq,
      bind_result run20_eq, bind_result run40_eq, bind_result run50_eq,
      bind_result run100_eq, bind_result run200_eq, bind_result run250_eq]
  · exact
      { nine, eleven, run5, run10, run20, run40, run50, run100, run200,
        run250 }

/-- The chain of powers ends with the exponent `p - 2`. -/
theorem inverse_computes
    (loose : x.Loose) :
    Computes (inverse? x) x.inverse (x.residue ^ (prime - 2)) := by
  rcases (chained_inversionChain x).powers loose with ⟨chain_eq, powers⟩
  rcases
      powers.run250.join 5 powers.eleven.loose powers.eleven.residue_eq with
    ⟨last_eq, last⟩
  have exponent : (2 ^ 250 - 1) * 2 ^ 5 + 11 = prime - 2 := by
    decide
  rw [exponent] at last
  refine ⟨?_, last.nominal, last.residue_eq⟩
  rw [inverse?, bind_result chain_eq]
  exact last_eq

/-- A loose element has the inverse of its residue, or zero if it has none. -/
theorem residue_inverse
    (loose : x.Loose) :
    x.inverse.residue = x.residue⁻¹ := by
  rw [(inverse_computes loose).residue_eq, pow_prime_sub_two]

/-- What the inverse of an element is, and what is found on the way to it. -/
structure HasInverse (x : Element) : Prop where
  /-- No operand is out of its bounds and nothing overflows. -/
  checked_eq : inverse? x = some x.inverse
  /-- The operands of all squarings and products but the element itself. -/
  operands :
    ∀ link ∈ x.square :: x.inversionChain.links,
      ∀ count, (link.squareTimes count).Reduced
  reduced : x.inverse.Reduced
  power : x.inverse.value ≡ x.value ^ (prime - 2) [MOD prime]
  cancels : ¬prime ∣ x.value → (x.mul x.inverse).value ≡ 1 [MOD prime]
  zero : prime ∣ x.value → prime ∣ x.inverse.value

/--
The chain ends with the power by `p - 2` of any loose element, and all its
operands are reduced, the element itself apart.  The product with the element
is congruent to one, unless the element stands for zero, as the modulus does;
then the inverse does as well.
-/
theorem hasInverse_of_loose
    (loose : x.Loose) :
    x.HasInverse := by
  have inverse := inverse_computes loose
  have product := mul_computes loose inverse.loose
  constructor
  case checked_eq => exact inverse.checked_eq
  case operands =>
    have powers := ((chained_inversionChain x).powers loose).2
    rw [List.forall_mem_cons]
    exact
      ⟨(link_square loose).reduced_squareTimes, powers.reduced_squareTimes⟩
  case reduced => exact inverse.reduced
  case power =>
    have power := inverse.residue_eq
    rw [residue, residue, ← Nat.cast_pow] at power
    exact (ZMod.natCast_eq_natCast_iff _ _ _).1 power
  case cancels =>
    intro nonzero
    have unit : x.residue ≠ 0 := fun zero =>
      nonzero (residue_eq_zero_iff.1 zero)
    have one := product.residue_eq
    rw [inverse.residue_eq, pow_prime_sub_two, mul_inv_cancel₀ unit,
      ← residue_one, residue_eq_iff] at one
    exact one
  case zero =>
    intro multiple
    rw [← residue_eq_zero_iff, residue_inverse loose,
      residue_eq_zero_iff.2 multiple, inv_zero]

/-- The modulus, as an element. -/
def modulus : Element :=
  { l0 := 0x3ffffed
    l1 := 0x1ffffff
    l2 := 0x3ffffff
    l3 := 0x1ffffff
    l4 := 0x3ffffff
    l5 := 0x1ffffff
    l6 := 0x3ffffff
    l7 := 0x1ffffff
    l8 := 0x3ffffff
    l9 := 0x1ffffff }

/-- The greatest limbs of a loose element. -/
def greatestLoose : Element :=
  { l0 := 0x7ffffff
    l1 := 0x400003f
    l2 := 0x7ffffff
    l3 := 0x400003f
    l4 := 0x7ffffff
    l5 := 0x400003f
    l6 := 0x7ffffff
    l7 := 0x400003f
    l8 := 0x7ffffff
    l9 := 0x400003f }

/-- The modulus leads to zero; the greatest loose limbs have an inverse. -/
theorem hasInverse_of_loose_greatest :
    (modulus.Loose ∧ modulus.value = prime ∧
        prime ∣ modulus.inverse.value) ∧
      greatestLoose.Loose ∧
      (greatestLoose.mul greatestLoose.inverse).value ≡ 1 [MOD prime] := by
  have modulusLoose : modulus.Loose := by
    decide
  have modulusValue : modulus.value = prime := by
    decide
  have greatestIsLoose : greatestLoose.Loose := by
    decide
  have nonzero : ¬prime ∣ greatestLoose.value := by
    decide
  exact
    ⟨⟨modulusLoose, modulusValue,
        (hasInverse_of_loose modulusLoose).zero
          (dvd_of_eq modulusValue.symm)⟩,
      greatestIsLoose, (hasInverse_of_loose greatestIsLoose).cancels nonzero⟩

end

end ModularLadder.Field25519.Element
