import Mathlib
import ModularLadder.Field448
import ModularLadder.Proofs.Primality

/-!
# The modulus `2^448 - 2^224 - 1` is prime

The factors of `p - 1` are certified in turn, from the small ones up.
Residues form a field, in which the power with exponent `p - 2` is the
inverse.
-/

namespace ModularLadder.Field448

/-- The small primes on which the certificates rely. -/
def smallPrimes : List Nat :=
  [2, 3, 5, 7, 13, 19, 31, 37, 61, 67, 151, 197, 223, 271, 463, 641, 2531,
    2683, 6197, 18287, 116989, 196687, 217003, 379979, 411743, 1466449,
    1609403, 2916841, 6700417, 36753053]

/-- The greatest prime factor of `p - 1`. -/
def greatestFactor : Nat :=
  37414057161322375957408148834323969

/-- Each prime with a base, and with the factors of its predecessor. -/
def certificates : List Primality.Certificate :=
  [⟨1255525949, 2, [2, 2, 2683, 116989]⟩,
    ⟨1335912079, 6, [2, 3, 19, 31, 61, 6197]⟩,
    ⟨1764234391, 3, [2, 3, 5, 271, 217003]⟩,
    ⟨3402277943, 5, [2, 7, 151, 1609403]⟩,
    ⟨32061889897, 10, [2, 2, 2, 3, 1335912079]⟩,
    ⟨25136521679249, 3, [2, 2, 2, 2, 7, 7, 32061889897]⟩,
    ⟨97859369123353, 5, [2, 2, 2, 3, 3, 67, 197, 271, 379979]⟩,
    ⟨34741861125639557, 13, [2, 2, 7, 7, 7, 31, 463, 1764234391]⟩,
    ⟨36131535570665139281, 3, [2, 2, 2, 2, 5, 13, 34741861125639557]⟩,
    ⟨1469495262398780123809, 17,
      [2, 2, 2, 2, 2, 3, 7, 7, 223, 411743, 3402277943]⟩,
    ⟨167773885276849215533569, 17,
      [2, 2, 2, 2, 2, 2, 2, 2, 2, 3, 3, 3, 7, 7, 2531, 97859369123353]⟩,
    ⟨596242599987116128415063, 5, [2, 37, 223, 36131535570665139281]⟩,
    ⟨greatestFactor, 23,
      [2, 2, 2, 2, 2, 2, 2, 2, 2, 3, 3, 7, 36753053, 1255525949,
        25136521679249]⟩,
    ⟨prime, 7,
      [2, 641, 18287, 196687, 1466449, 2916841, 6700417,
        1469495262398780123809, 167773885276849215533569,
        596242599987116128415063, greatestFactor]⟩]

theorem prime_prime :
    prime.Prime := by
  have known : ∀ number ∈ smallPrimes, number.Prime := by
    simp only [smallPrimes, List.forall_mem_cons]
    norm_num
  have certified : Primality.Certified smallPrimes certificates := by
    decide +kernel
  exact
    Primality.primes_of_certified known certified _ (List.mem_of_getLast? rfl)

instance : Fact prime.Prime :=
  ⟨prime_prime⟩

/-- The field of integers modulo `2^448 - 2^224 - 1`. -/
abbrev Residue : Type :=
  ZMod prime

/-- The power by which elements are inverted; the one of zero is zero. -/
theorem pow_prime_sub_two
    (x : Residue) :
    x ^ (prime - 2) = x⁻¹ :=
  Primality.pow_sub_two (by decide) x

end ModularLadder.Field448
