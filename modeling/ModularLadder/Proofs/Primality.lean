import Mathlib

/-!
# Certificates of primality

A number is prime if some base has the order one less than the number.  To
know that order it is enough to know the prime factors of what is one less
than the number, and to compute one power for each of them.  The factors are
known to be prime, or have certificates of their own earlier in the list.

The powers are computed along the digits of the exponent, so that a
certificate is checked by evaluation.  Digits of four bits keep the recursion
shallow.

Modulo an odd prime, powers also give inverses, and one power tells that a
number is not a square.
-/

namespace ModularLadder.Primality

/-- A power modulo a number, for an exponent of so many digits of four bits. -/
def powerModulo (modulus base : Nat) : (count exponent : Nat) → Nat
  | 0, _ => 1 % modulus
  | count + 1, exponent =>
    powerModulo modulus base count (exponent / 16) ^ 16 *
      base ^ (exponent % 16) % modulus

/-- The base has the order `number - 1`, whose prime factors are given. -/
def Certifies (number base : Nat) (factors : List Nat) : Prop :=
  let power := powerModulo number base (number.log2 / 4 + 1)
  1 < number ∧
    factors.prod = number - 1 ∧
    power (number - 1) = 1 ∧
    ∀ factor ∈ factors, power ((number - 1) / factor) ≠ 1

instance
    (number base : Nat)
    (factors : List Nat) :
    Decidable (Certifies number base factors) :=
  inferInstanceAs (Decidable (_ ∧ _))

theorem powerModulo_eq
    (modulus base count exponent : Nat)
    (fits : exponent < 16 ^ count) :
    powerModulo modulus base count exponent = base ^ exponent % modulus := by
  induction count generalizing exponent with
  | zero =>
    have zero : exponent = 0 := by
      rw [Nat.pow_zero] at fits
      omega
    rw [powerModulo, zero, Nat.pow_zero]
  | succ count ih =>
    have upper : exponent / 16 < 16 ^ count := by
      rw [Nat.pow_succ] at fits
      omega
    have split : exponent / 16 * 16 + exponent % 16 = exponent :=
      Nat.div_add_mod' exponent 16
    rw [powerModulo, ih _ upper, Nat.mul_mod, ← Nat.pow_mod, ← Nat.mul_mod,
      ← Nat.pow_mul, ← Nat.pow_add, split]

/-- A certified number is prime if the given factors are. -/
theorem prime_of_certifies
    {number base : Nat}
    {factors : List Nat}
    (primes : ∀ factor ∈ factors, factor.Prime)
    (certifies : Certifies number base factors) :
    number.Prime := by
  rcases certifies with ⟨positive, product, order, parts⟩
  have power (exponent : Nat) (le : exponent ≤ number - 1) :
      powerModulo number base (number.log2 / 4 + 1) exponent = 1 ↔
        (base : ZMod number) ^ exponent = 1 := by
    have fits : exponent < 16 ^ (number.log2 / 4 + 1) := by
      have bound := @Nat.lt_log2_self number
      have digits : 2 ^ (number.log2 + 1) ≤ 16 ^ (number.log2 / 4 + 1) := by
        rw [show 16 = 2 ^ 4 from rfl, ← Nat.pow_mul]
        apply Nat.pow_le_pow_right Nat.two_pos
        omega
      omega
    rw [powerModulo_eq _ _ _ _ fits, ← Nat.cast_pow,
      ← Nat.cast_one (R := ZMod number), ZMod.natCast_eq_natCast_iff',
      Nat.mod_eq_of_lt positive]
  apply lucas_primality number (base : ZMod number)
  · rw [← power _ (le_refl _)]
    exact order
  · intro factor prime divides
    rw [← product, prime.prime.dvd_prod_iff] at divides
    rcases divides with ⟨member, isMember, divides⟩
    have same : factor = member :=
      (Nat.prime_dvd_prime_iff_eq prime (primes member isMember)).1 divides
    rw [ne_eq, ← power _ (Nat.div_le_self _ _), same]
    exact parts member isMember

/-- A number with the base and the prime factors that certify it. -/
structure Certificate where
  number : Nat
  base : Nat
  factors : List Nat

/-- Each certificate relies on known primes and on those certified before. -/
def Certified : (known : List Nat) → List Certificate → Prop
  | _, [] => True
  | known, certificate :: later =>
    (∀ factor ∈ certificate.factors, factor ∈ known) ∧
      Certifies certificate.number certificate.base certificate.factors ∧
      Certified (certificate.number :: known) later

instance decidableCertified :
    (known : List Nat) →
      (certificates : List Certificate) →
        Decidable (Certified known certificates)
  | _, [] => inferInstanceAs (Decidable True)
  | known, certificate :: later =>
    letI := decidableCertified (certificate.number :: known) later
    inferInstanceAs (Decidable (_ ∧ _ ∧ _))

/-- All numbers of a list of certificates are prime if the known ones are. -/
theorem primes_of_certified
    {known : List Nat}
    {certificates : List Certificate}
    (primes : ∀ number ∈ known, number.Prime)
    (certified : Certified known certificates) :
    ∀ certificate ∈ certificates, certificate.number.Prime := by
  induction certificates generalizing known with
  | nil => exact fun _ none => absurd none List.not_mem_nil
  | cons certificate later ih =>
    rcases certified with ⟨factorsKnown, certifies, rest⟩
    have first : certificate.number.Prime :=
      prime_of_certifies
        (fun factor mem => primes factor (factorsKnown factor mem)) certifies
    rw [List.forall_mem_cons]
    exact ⟨first, ih (List.forall_mem_cons.2 ⟨first, primes⟩) rest⟩

section

variable
  {modulus : Nat}
  [Fact modulus.Prime]
  (odd : 2 < modulus)

include odd

/-- The power with exponent `p - 2` is the inverse; the one of zero is zero. -/
theorem pow_sub_two
    (x : ZMod modulus) :
    x ^ (modulus - 2) = x⁻¹ := by
  by_cases zero : x = 0
  · have positive : modulus - 2 ≠ 0 := by omega
    rw [zero, zero_pow positive, inv_zero]
  · have exponent : modulus - 2 + 1 = modulus - 1 := by omega
    apply eq_inv_of_mul_eq_one_left
    rw [← pow_succ, exponent]
    exact ZMod.pow_card_sub_one_eq_one zero

theorem two_ne_zero :
    (2 : ZMod modulus) ≠ 0 := by
  intro zero
  have divides := (ZMod.natCast_eq_zero_iff 2 modulus).1 (by exact_mod_cast zero)
  exact Nat.not_lt.2 (Nat.le_of_dvd Nat.two_pos divides) odd

/-- A number is not a square if its power by half of `p - 1` is minus one. -/
theorem not_isSquare_of_power
    {number count : Nat}
    (fits : modulus / 2 < 16 ^ count)
    (power : powerModulo modulus number count (modulus / 2) = modulus - 1) :
    ¬IsSquare (number : ZMod modulus) := by
  have minusOne : (number : ZMod modulus) ^ (modulus / 2) = -1 := by
    rw [powerModulo_eq _ _ _ _ fits] at power
    have cast := congrArg (Nat.cast (R := ZMod modulus)) power
    rw [ZMod.natCast_mod, Nat.cast_pow, Nat.cast_sub (by omega),
      ZMod.natCast_self, Nat.cast_one, zero_sub] at cast
    exact cast
  have nonzero : (number : ZMod modulus) ≠ 0 := by
    intro zero
    have positive : modulus / 2 ≠ 0 := by omega
    rw [zero, zero_pow positive] at minusOne
    exact neg_ne_zero.2 one_ne_zero minusOne.symm
  rw [ZMod.euler_criterion modulus nonzero, minusOne]
  intro same
  apply two_ne_zero odd
  linear_combination -same

end

end ModularLadder.Primality
