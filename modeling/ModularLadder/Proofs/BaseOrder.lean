import Mathlib
import ModularLadder.Proofs.Ed25519.Reachable
import ModularLadder.Proofs.Ed448.Reachable
import ModularLadder.Proofs.EdwardsMultiples

/-!
# The orders of the base points

The order that is given for each base point is a prime, which is certified in
the same way as the moduli.  The multiple of the base point by it is neutral,
by evaluation, and the base point itself is not; so no smaller multiple is
neutral either.

Multiples of the base point by scalars of any length are therefore the same
exactly if the numbers of the scalars are congruent modulo the order.
-/

namespace ModularLadder.Ed25519

open EdwardsCurve (Numbers)
open Field25519 (Residue prime)

/-- The small primes on which the certificates rely. -/
def smallPrimes : List Nat :=
  [2, 3, 5, 7, 11, 23, 41, 43, 73, 269, 307, 1361, 2851, 5879, 30703, 82163,
    132667, 137849, 531581, 1224481, 14741173]

/-- The two greatest prime factors of the order less one. -/
def greatFactors : Nat × Nat :=
  (198211423230930754013084525763697,
    276602624281642239937218680557139826668747)

/-- Each prime with a base, and with the factors of its predecessor. -/
def certificates : List Primality.Certificate :=
  [⟨58964693, 2, [2, 2, 14741173]⟩,
    ⟨292386187, 2, [2, 3, 3, 3, 3, 307, 5879]⟩,
    ⟨213441916511, 13, [2, 5, 73, 292386187]⟩,
    ⟨1257559732178653, 2, [2, 2, 3, 7, 23, 531581, 1224481]⟩,
    ⟨4434155615661930479, 17, [2, 41, 43, 1257559732178653]⟩,
    ⟨3044861653679985063343, 5, [2, 3, 11, 30703, 82163, 132667, 137849]⟩,
    ⟨172054593956031949258510691, 2,
      [2, 5, 1361, 2851, 4434155615661930479]⟩,
    ⟨greatFactors.1, 5,
      [2, 2, 2, 2, 3, 23, 58964693, 3044861653679985063343]⟩,
    ⟨19757330305831588566944191468367130476339, 2,
      [2, 269, 213441916511, 172054593956031949258510691]⟩,
    ⟨greatFactors.2, 2,
      [2, 7, 19757330305831588566944191468367130476339]⟩,
    ⟨order.bigEndianValue, 2,
      [2, 2, 3, 11, greatFactors.1, greatFactors.2]⟩]

theorem prime_order :
    order.bigEndianValue.Prime := by
  have known : ∀ number ∈ smallPrimes, number.Prime := by
    simp only [smallPrimes, List.forall_mem_cons]
    norm_num
  have certified : Primality.Certified smallPrimes certificates := by
    decide +kernel
  exact
    Primality.primes_of_certified known certified _ (List.mem_of_getLast? rfl)

theorem parameters :
    Numbers.Parameters curve 1 d.value where
  minusA_eq := by
    rw [curve_a, neg_neg, Nat.cast_one]
  d_eq := residue_d

/-- The base point has the given order. -/
theorem addOrderOf_basePoint :
    addOrderOf Point.basePoint = order.bigEndianValue := by
  have represents : Numbers.Represent _ Point.basePoint :=
    Numbers.represent_affine rfl rfl
  have fits : order.bigEndianValue < 2 ^ 253 := by
    decide
  apply represents.addOrderOf_eq parameters prime_order _ fits
  · decide +kernel
  · decide

/-- Multiples of the base point repeat with the period of the order. -/
theorem same_scale_base_iff
    (first second : Bytes) :
    Point.Same (Point.base.scale first) (Point.base.scale second) ↔
      first.bigEndianValue ≡ second.bigEndianValue
        [MOD order.bigEndianValue] := by
  have firstStands := (Point.stands_base.scale first).stands
  have secondStands := (Point.stands_base.scale second).stands
  rw [firstStands.same_iff secondStands, nsmul_eq_nsmul_iff_modEq,
    addOrderOf_basePoint]

end ModularLadder.Ed25519

namespace ModularLadder.Ed448

open Bytes (bigEndianValue)
open EdwardsCurve (Numbers)
open Field448 (Residue prime)

/-- The small primes on which the certificates rely. -/
def smallPrimes : List Nat :=
  [2, 3, 5, 7, 11, 13, 17, 19, 23, 61, 79, 97, 113, 179, 311, 337, 991, 1609,
    1933, 2239, 6577, 34483, 41389, 51473, 64817, 227393, 766223, 3009341,
    4847597, 7156907, 9801157, 15643211, 35796097]

/-- The greatest prime factor of the order less one. -/
def greatestFactor : Nat :=
  547972593843380542316719287015009101629889568888367769396279985548530313239

/-- Each prime with a base, and with the factors of its predecessor. -/
def certificates : List Primality.Certificate :=
  [⟨47840521, 17, [2, 2, 2, 3, 5, 7, 13, 13, 337]⟩,
    ⟨671065561, 7, [2, 2, 2, 3, 3, 3, 3, 5, 11, 19, 991]⟩,
    ⟨765448337, 3, [2, 2, 2, 2, 47840521]⟩,
    ⟨8464734851, 2, [2, 5, 5, 11, 13, 23, 51473]⟩,
    ⟨342682509629, 2, [2, 2, 17, 6577, 766223]⟩,
    ⟨95024118539459, 2, [2, 4847597, 9801157]⟩,
    ⟨760192948315673, 3, [2, 2, 2, 95024118539459]⟩,
    ⟨2746144996771313789, 2, [2, 2, 7, 113, 1609, 34483, 15643211]⟩,
    ⟨163131120638915058577002756917, 2,
      [2, 2, 61, 79, 311, 35796097, 760192948315673]⟩,
    ⟨929098197455246849020086750707, 2,
      [2, 13, 17, 765448337, 2746144996771313789]⟩,
    ⟨6730519843040614479184435237013, 2,
      [2, 2, 41389, 7156907, 671065561, 8464734851]⟩,
    ⟨3591893631361984318311655378233263, 5,
      [2, 1933, 929098197455246849020086750707]⟩,
    ⟨392279121964710096549298451519713063, 3,
      [2, 3, 179, 2239, 163131120638915058577002756917]⟩,
    ⟨greatestFactor, 3,
      [2, 3, 64817, 3591893631361984318311655378233263,
        392279121964710096549298451519713063]⟩,
    ⟨bigEndianValue order, 2,
      [2, 3, 19, 19, 97, 227393, 3009341, 342682509629,
        6730519843040614479184435237013, greatestFactor]⟩]

theorem prime_order :
    (bigEndianValue order).Prime := by
  have known : ∀ number ∈ smallPrimes, number.Prime := by
    simp only [smallPrimes, List.forall_mem_cons]
    norm_num
  have certified : Primality.Certified smallPrimes certificates := by
    decide +kernel
  exact
    Primality.primes_of_certified known certified _ (List.mem_of_getLast? rfl)

theorem parameters :
    Numbers.Parameters curve (prime - 1) (prime - 39081) where
  minusA_eq := by
    have least : 1 ≤ prime := by
      decide +kernel
    rw [curve_a, Nat.cast_sub least, ZMod.natCast_self, zero_sub,
      Nat.cast_one]
  d_eq := natCast_coefficient

/-- The base point has the given order. -/
theorem addOrderOf_basePoint :
    addOrderOf Point.basePoint = bigEndianValue order := by
  have represents : Numbers.Represent _ Point.basePoint :=
    Numbers.represent_affine rfl rfl
  have fits : bigEndianValue order < 2 ^ 446 := by
    decide +kernel
  apply represents.addOrderOf_eq parameters prime_order _ fits
  · decide +kernel
  · decide +kernel

/-- Multiples of the base point repeat with the period of the order. -/
theorem eq_scale_base_eq
    {context : CurveContext}
    (sound : context.Sound)
    {base : Point}
    (stands : base.Stands context Point.basePoint)
    (first second : Bytes) :
    (base.scale first).eq (base.scale second) =
      .ok
        (decide
          (bigEndianValue first ≡ bigEndianValue second
            [MOD bigEndianValue order])) := by
  have firstStands := stands.scale sound first
  have secondStands := stands.scale sound second
  rw [firstStands.eq_eq sound secondStands]
  simp only [nsmul_eq_nsmul_iff_modEq, addOrderOf_basePoint]

end ModularLadder.Ed448

namespace ModularLadder

/--
The order is the exact period of the multiples of the base point, on both
Edwards curves: two scalars of any length give the same multiple exactly if
their numbers are congruent modulo the order.
-/
theorem base_multiples_period
    (first second : Bytes) :
    (Ed25519.Point.Same (Ed25519.Point.base.scale first)
        (Ed25519.Point.base.scale second) ↔
      first.bigEndianValue ≡ second.bigEndianValue
        [MOD Ed25519.order.bigEndianValue]) ∧
    ∀ identity, ∃ context base same,
      Ed448.CurveContext.ofIdentity identity = .ok context ∧
        Ed448.Point.base context = .ok base ∧
        (base.scale first).eq (base.scale second) = .ok same ∧
        (same = true ↔
          first.bigEndianValue ≡ second.bigEndianValue
            [MOD Ed448.order.bigEndianValue]) := by
  refine ⟨Ed25519.same_scale_base_iff first second, ?_⟩
  intro identity
  rcases Ed448.CurveContext.exists_ofIdentity identity with
    ⟨context, made, sound⟩
  rcases Ed448.Point.answers_base sound with ⟨base, accepted, stands⟩
  exact
    ⟨context, base, _, made, accepted,
      Ed448.eq_scale_base_eq sound stands first second, decide_eq_true_iff⟩

end ModularLadder
