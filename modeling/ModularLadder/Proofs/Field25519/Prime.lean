import Mathlib
import ModularLadder.Field25519.Element
import ModularLadder.Proofs.Primality

/-!
# The modulus `2^255 - 19` is prime

The factors of `p - 1` are certified in turn, from the small ones up.
Residues form a field, in which the power with exponent `p - 2` is the
inverse.
-/

namespace ModularLadder.Field25519

/-- The small primes on which the certificates rely. -/
def smallPrimes : List Nat :=
  [2, 3, 5, 7, 13, 19, 31, 47, 107, 127, 223, 353, 2437, 4153, 57467, 65147,
    75707, 132049, 430751, 569003, 1923133, 8574133]

/-- The greatest prime factor of `p - 1`. -/
def greatestFactor : Nat :=
  74058212732561358302231226437062788676166966415465897661863160754340907

/-- Each prime with a base, and with the factors of its predecessor. -/
def certificates : List Primality.Certificate :=
  [⟨2773320623, 5, [2, 2437, 569003]⟩,
    ⟨72106336199, 7, [2, 13, 2773320623]⟩,
    ⟨1919519569386763, 2, [2, 3, 7, 19, 47, 47, 127, 8574133]⟩,
    ⟨31757755568855353, 10, [2, 2, 2, 3, 31, 107, 223, 4153, 430751]⟩,
    ⟨75445702479781427272750846543864801, 7,
      [2, 2, 2, 2, 2, 3, 3, 5, 5, 75707, 72106336199, 1919519569386763]⟩,
    ⟨greatestFactor, 2,
      [2, 3, 353, 57467, 132049, 1923133, 31757755568855353,
        75445702479781427272750846543864801]⟩,
    ⟨prime, 2, [2, 2, 3, 65147, greatestFactor]⟩]

theorem prime_prime :
    prime.Prime := by
  have known : ∀ number ∈ smallPrimes, number.Prime := by
    simp only [smallPrimes, List.forall_mem_cons]
    norm_num
  have certified : Primality.Certified smallPrimes certificates := by
    decide +kernel
  exact
    Primality.primes_of_certified known certified _ (List.mem_of_getLast? rfl)

instance : Fact prime.Prime :=
  ⟨prime_prime⟩

/-- The field of integers modulo `2^255 - 19`. -/
abbrev Residue : Type :=
  ZMod prime

/-- The power that ends the chain is the inverse; the one of zero is zero. -/
theorem pow_prime_sub_two
    (x : Residue) :
    x ^ (prime - 2) = x⁻¹ :=
  Primality.pow_sub_two (by decide) x

end ModularLadder.Field25519
