import Mathlib
import ModularLadder.Proofs.Choice
import ModularLadder.Proofs.Field25519.Canonical
import ModularLadder.Proofs.Field25519.Prime

/-!
# Elements compute modulo `2^255 - 19` without overflow

Every operation on elements is stated twice more.  As a checked operation it
verifies the documented bounds on its operands, does its arithmetic on checked
limbs, and has no result if a bound is violated or anything overflows.  On
residues it is the operation of the ring modulo `p`.

For operands within the bounds the checked operation has the result of the
operation itself; that result has limbs of nominal width and the residue that
the ring says.
-/

namespace ModularLadder.Field25519

/-! ## Checked limbs put together -/

/-- The elements that checked limbs have found, cut to 32 bits. -/
def collect {bits : Nat} (z : TenLimbs (Checked bits)) : Option Element := do
  let l0 ← z.l0.result
  let l1 ← z.l1.result
  let l2 ← z.l2.result
  let l3 ← z.l3.result
  let l4 ← z.l4.result
  let l5 ← z.l5.result
  let l6 ← z.l6.result
  let l7 ← z.l7.result
  let l8 ← z.l8.result
  let l9 ← z.l9.result
  some
    { l0 := UInt32.ofNat l0
      l1 := UInt32.ofNat l1
      l2 := UInt32.ofNat l2
      l3 := UInt32.ofNat l3
      l4 := UInt32.ofNat l4
      l5 := UInt32.ofNat l5
      l6 := UInt32.ofNat l6
      l7 := UInt32.ofNat l7
      l8 := UInt32.ofNat l8
      l9 := UInt32.ofNat l9 }

theorem LimbsAgree.collect_eq
    {Machine : Type}
    {bits : Nat}
    [∀ number, OfNat Machine number]
    [Add Machine]
    [Sub Machine]
    [Mul Machine]
    [AndOp Machine]
    [ShiftRight Machine]
    [MachineWord Machine bits]
    {checked : TenLimbs (Checked bits)}
    {words : TenLimbs Machine}
    {numbers : TenLimbs Nat}
    (agree : LimbsAgree checked words numbers) :
    collect checked = some (numbers.map UInt32.ofNat) := by
  rw [collect, agree.l0.unmarked, agree.l1.unmarked, agree.l2.unmarked,
    agree.l3.unmarked, agree.l4.unmarked, agree.l5.unmarked,
    agree.l6.unmarked, agree.l7.unmarked, agree.l8.unmarked,
    agree.l9.unmarked]
  rfl

theorem LimbsAgree.collect_narrow
    {checked : TenLimbs (Checked 32)}
    {words : Element}
    {numbers : TenLimbs Nat}
    (agree : LimbsAgree checked words numbers) :
    collect checked = some words ∧ words.map UInt32.toNat = numbers := by
  have same := agree.numbers_eq
  refine ⟨?_, same.symm⟩
  rw [agree.collect_eq, same]
  show some (words.map fun limb => UInt32.ofNat limb.toNat) = some words
  simp only [UInt32.ofNat_toNat]
  rfl

/-! ## Limbs, residues and bounds -/

namespace Element

/-- The limbs of an element as natural numbers. -/
def limbs (x : Element) : TenLimbs Nat :=
  x.map UInt32.toNat

/-- The limbs of an element as checked numbers. -/
def checked (bits : Nat) (x : Element) : TenLimbs (Checked bits) :=
  x.map fun limb => ⟨some limb.toNat⟩

/-- The residue that an element stands for. -/
def residue (x : Element) : Residue :=
  (x.value : Residue)

/-- Every limb has its nominal width. -/
def Nominal (x : Element) : Prop :=
  x.limbs.Below (2 ^ 26) (2 ^ 25)

theorem value_eq
    (x : Element) :
    x.value = x.limbs.weighted :=
  rfl

theorem residue_eq_iff
    {x y : Element} :
    x.residue = y.residue ↔ x.value ≡ y.value [MOD prime] :=
  ZMod.natCast_eq_natCast_iff _ _ _

theorem residue_eq_zero_iff
    {x : Element} :
    x.residue = 0 ↔ prime ∣ x.value :=
  ZMod.natCast_eq_zero_iff _ _

/-- The least number with the value of an element modulo `p`. -/
theorem val_residue
    (x : Element) :
    x.residue.val = x.value % prime :=
  ZMod.val_natCast prime x.value

theorem Nominal.reduced
    {x : Element}
    (nominal : x.Nominal) :
    x.Reduced := by
  rcases nominal with ⟨h0, h1, h2, h3, h4, h5, h6, h7, h8, h9⟩
  exact
    ⟨h0, h1.le, h2, h3.le, h4, h5.le, h6, h7.le, h8, h9.le⟩

theorem Loose.below
    {x : Element}
    (loose : x.Loose) :
    x.limbs.Below (2 ^ 27) (2 ^ 26 + 2 ^ 6) :=
  loose

theorem Reduced.loose
    {x : Element}
    (reduced : x.Reduced) :
    x.Loose := by
  rcases reduced with ⟨h0, h1, h2, h3, h4, h5, h6, h7, h8, h9⟩
  have even {limb : Nat} (bound : limb < 1 <<< 26) : limb < 1 <<< 27 :=
    bound.trans (by decide)
  have odd {limb : Nat} (bound : limb ≤ 1 <<< 25) :
      limb < (1 <<< 26) + (1 <<< 6) :=
    bound.trans_lt (by decide)
  exact
    ⟨even h0, odd h1, even h2, odd h3, even h4, odd h5, even h6, odd h7,
      even h8, odd h9⟩

theorem reduced_zero :
    zero.Reduced := by
  decide

theorem reduced_one :
    one.Reduced := by
  decide

@[simp]
theorem residue_zero :
    zero.residue = 0 := by
  have value : zero.value = 0 := by
    decide
  rw [residue, value, Nat.cast_zero]

@[simp]
theorem residue_one :
    one.residue = 1 := by
  have value : one.value = 1 := by
    decide
  rw [residue, value, Nat.cast_one]

/-- The limbs of an element, wide or not, agree with its checked limbs. -/
theorem widen_agree
    (x : Element) :
    LimbsAgree (x.checked 64) x.widen x.limbs := by
  have rule (limb : UInt32) :
      Agrees (⟨some limb.toNat⟩ : Checked 64) limb.toUInt64 limb.toNat :=
    ⟨rfl, UInt32.toNat_toUInt64 limb, limb.toNat_lt.trans (by decide)⟩
  exact
    ⟨rule x.l0, rule x.l1, rule x.l2, rule x.l3, rule x.l4, rule x.l5,
      rule x.l6, rule x.l7, rule x.l8, rule x.l9⟩

/-- The limbs of an element, whatever they are, can be carried around. -/
theorem limbs_below
    (x : Element) :
    x.limbs.Below (2 ^ 63) (2 ^ 63) := by
  have bound (limb : UInt32) : limb.toNat < 2 ^ 63 :=
    limb.toNat_lt.trans (by decide)
  exact
    ⟨bound x.l0, bound x.l1, bound x.l2, bound x.l3, bound x.l4, bound x.l5,
      bound x.l6, bound x.l7, bound x.l8, bound x.l9⟩

/-- A small factor, wide or not, agrees with the checked one. -/
theorem factor_agrees
    (factor : UInt32) :
    Agrees (⟨some factor.toNat⟩ : Checked 64) factor.toUInt64 factor.toNat :=
  ⟨rfl, UInt32.toNat_toUInt64 factor, factor.toNat_lt.trans (by decide)⟩

theorem narrow_agree
    (x : Element) :
    LimbsAgree (x.checked 32) x x.limbs := by
  have rule (limb : UInt32) :
      Agrees (⟨some limb.toNat⟩ : Checked 32) limb limb.toNat :=
    ⟨rfl, rfl, limb.toNat_lt⟩
  exact
    ⟨rule x.l0, rule x.l1, rule x.l2, rule x.l3, rule x.l4, rule x.l5,
      rule x.l6, rule x.l7, rule x.l8, rule x.l9⟩

end Element

/-! ## Checked computations -/

/-- What the carries around leave, as an element of nominal limbs. -/
theorem LimbsAgree.reduce_exact
    {checked : TenLimbs (Checked 64)}
    {words : Accumulators}
    {numbers : TenLimbs Nat}
    (agree : LimbsAgree checked words numbers)
    (below : numbers.Below (2 ^ 63) (2 ^ 63)) :
    collect checked.carryAround = some words.reduce ∧
      words.reduce.limbs = numbers.carryAround := by
  have around := agree.carryAround below
  have nominal := TenLimbs.carryAround_below below
  have numbersEq := around.numbers_eq
  have narrowed : words.reduce = numbers.carryAround.map UInt32.ofNat := by
    rw [numbersEq]
    rfl
  constructor
  · rw [narrowed]
    exact around.collect_eq
  · rw [narrowed]
    rcases nominal with ⟨h0, h1, h2, h3, h4, h5, h6, h7, h8, h9⟩
    have exact {limb : Nat} (bound : limb < 2 ^ 26) :
        (UInt32.ofNat limb).toNat = limb :=
      UInt32.toNat_ofNat_of_lt' (bound.trans (by decide))
    cases cut : numbers.carryAround
    rw [cut] at h0 h1 h2 h3 h4 h5 h6 h7 h8 h9
    simp only [Element.limbs, TenLimbs.map, TenLimbs.mk.injEq]
    exact
      ⟨exact h0, exact (h1.trans (by decide)), exact h2,
        exact (h3.trans (by decide)), exact h4,
        exact (h5.trans (by decide)), exact h6,
        exact (h7.trans (by decide)), exact h8,
        exact (h9.trans (by decide))⟩

/--
The result of an operation: checked, within the nominal bounds and with the
residue that is meant.
-/
structure Computes
    (checked : Option Element)
    (result : Element)
    (residue : Residue) :
    Prop where
  checked_eq : checked = some result
  nominal : result.Nominal
  residue_eq : result.residue = residue

/-- A checked operation with a result hands it on. -/
theorem bind_result
    {α β : Type}
    {checked : Option α}
    {result : α}
    (checked_eq : checked = some result)
    (rest : α → Option β) :
    (checked >>= rest) = rest result := by
  rw [checked_eq, Option.bind_eq_bind, Option.bind_some]

theorem Computes.bind
    {β : Type}
    {checked : Option Element}
    {result : Element}
    {residue : Residue}
    (computes : Computes checked result residue)
    (rest : Element → Option β) :
    (checked >>= rest) = rest result :=
  bind_result computes.checked_eq rest

theorem Computes.reduced
    {checked : Option Element}
    {result : Element}
    {residue : Residue}
    (computes : Computes checked result residue) :
    result.Reduced :=
  computes.nominal.reduced

theorem Computes.loose
    {checked : Option Element}
    {result : Element}
    {residue : Residue}
    (computes : Computes checked result residue) :
    result.Loose :=
  computes.nominal.reduced.loose

theorem LimbsAgree.reduce_computes
    {checked : TenLimbs (Checked 64)}
    {words : Accumulators}
    {numbers : TenLimbs Nat}
    (agree : LimbsAgree checked words numbers)
    (below : numbers.Below (2 ^ 63) (2 ^ 63)) :
    Computes (collect checked.carryAround) words.reduce
      (numbers.weighted : Residue) := by
  rcases agree.reduce_exact below with ⟨collected, limbs⟩
  refine ⟨collected, ?_, ?_⟩
  · rw [Element.Nominal, limbs]
    exact TenLimbs.carryAround_below below
  · rw [Element.residue, Element.value_eq, limbs]
    exact
      (ZMod.natCast_eq_natCast_iff _ _ _).2
        (TenLimbs.weighted_carryAround numbers)

/-! ## The operations -/

namespace Element

/-- The checked form of `reduce`. -/
def reduce? (x : Element) : Option Element :=
  collect (x.checked 64).carryAround

/-- The checked form of `add`. -/
def add? (x y : Element) : Option Element :=
  if x.Reduced ∧ y.Reduced then
    collect ((x.checked 32).sum (y.checked 32))
  else
    none

/-- The checked form of `sub`. -/
def sub? (x y : Element) : Option Element :=
  if x.Loose ∧ y.Loose then
    collect ((x.checked 64).raisedDifference (y.checked 64)).carryAround
  else
    none

/-- The checked form of `mul`. -/
def mul? (x y : Element) : Option Element :=
  if x.Loose ∧ y.Loose then
    collect ((x.checked 64).product (y.checked 64)).carryAround
  else
    none

/-- The checked form of `square`. -/
def square? (x : Element) : Option Element :=
  mul? x x

/-- The checked form of `squareTimes`. -/
def squareTimes? : (count : Nat) → (x : Element) → Option Element
  | 0, x => some x
  | count + 1, x => do
    let squared ← square? x
    squareTimes? count squared

/-- The checked form of `mulSmall`. -/
def mulSmall? (x : Element) (factor : UInt32) : Option Element :=
  if x.Loose then
    collect
      ((x.checked 64).map (· * ⟨some factor.toNat⟩)).carryAround
  else
    none

section

variable
  {x y : Element}

theorem reduce_computes
    (x : Element) :
    Computes (reduce? x) x.reduce x.residue :=
  (widen_agree x).reduce_computes x.limbs_below

theorem sub_computes
    (xLoose : x.Loose)
    (yLoose : y.Loose) :
    Computes (sub? x y) (x.sub y) (x.residue - y.residue) := by
  have agree :=
    (widen_agree x).raisedDifference (widen_agree y) xLoose.below yLoose.below
  have computes :=
    agree.reduce_computes (TenLimbs.raisedDifference_below xLoose.below)
  have total :=
    congrArg (Nat.cast (R := Residue))
      (TenLimbs.weighted_raisedDifference (x := x.limbs) yLoose.below)
  rw [Nat.cast_add, Nat.cast_add, Nat.cast_mul, ZMod.natCast_self, mul_zero,
    add_zero] at total
  rw [eq_sub_of_add_eq total] at computes
  rw [sub?, if_pos ⟨xLoose, yLoose⟩]
  exact computes

theorem neg_computes
    (loose : x.Loose) :
    Computes (sub? zero x) x.neg (-x.residue) := by
  have computes := sub_computes reduced_zero.loose loose
  rw [residue_zero, zero_sub] at computes
  exact computes

theorem mul_computes
    (xLoose : x.Loose)
    (yLoose : y.Loose) :
    Computes (mul? x y) (x.mul y) (x.residue * y.residue) := by
  rcases
      product_agree (widen_agree x) (widen_agree y) xLoose.below yLoose.below with
    ⟨agree, below⟩
  have computes := agree.reduce_computes below
  have product :=
    (ZMod.natCast_eq_natCast_iff _ _ _).2
      (TenLimbs.weighted_product x.limbs y.limbs)
  rw [product, Nat.cast_mul] at computes
  rw [mul?, if_pos ⟨xLoose, yLoose⟩]
  exact computes

theorem square_computes
    (loose : x.Loose) :
    Computes (square? x) x.square (x.residue ^ 2) := by
  rw [pow_two]
  exact mul_computes loose loose

theorem squareTimes_computes
    (nominal : x.Nominal)
    (count : Nat) :
    Computes (squareTimes? count x) (x.squareTimes count)
      (x.residue ^ 2 ^ count) := by
  induction count generalizing x with
  | zero =>
    refine ⟨rfl, nominal, ?_⟩
    rw [Nat.pow_zero, pow_one]
    rfl
  | succ count ih =>
    have squared := square_computes nominal.reduced.loose
    have further := ih squared.nominal
    rw [squared.residue_eq, ← pow_mul, ← Nat.pow_succ'] at further
    rw [squareTimes?, squared.bind]
    exact further

/-- A loose element, squared at least once. -/
theorem squareTimes_succ_computes
    (loose : x.Loose)
    (count : Nat) :
    Computes (squareTimes? (count + 1) x) (x.squareTimes (count + 1))
      (x.residue ^ 2 ^ (count + 1)) := by
  have squared := square_computes loose
  have further := squareTimes_computes squared.nominal count
  rw [squared.residue_eq, ← pow_mul, ← Nat.pow_succ'] at further
  rw [squareTimes?, squared.bind]
  exact further

theorem mulSmall_computes
    (loose : x.Loose)
    (factor : UInt32) :
    Computes (mulSmall? x factor) (x.mulSmall factor)
      (x.residue * factor.toNat) := by
  rcases
      scaled_agree (widen_agree x) (factor_agrees factor) loose.below
        factor.toNat_lt with
    ⟨agree, below⟩
  have computes := agree.reduce_computes below
  rw [TenLimbs.weighted_scaled, Nat.cast_mul] at computes
  rw [mulSmall?, if_pos loose]
  exact computes

/-- The sum of reduced elements is checked and loose. -/
theorem add_checked
    (xReduced : x.Reduced)
    (yReduced : y.Reduced) :
    add? x y = some (x.add y) ∧
      (x.add y).Loose ∧
      (x.add y).residue = x.residue + y.residue := by
  have agree :=
    sum_agree (narrow_agree x) (narrow_agree y)
      (xReduced.loose.below.mono (by decide) (by decide))
      (yReduced.loose.below.mono (by decide) (by decide))
  have collected := agree.collect_narrow.1
  have limbs : (x.add y).limbs = x.limbs.sum y.limbs :=
    agree.collect_narrow.2
  refine ⟨?_, ?_, ?_⟩
  · rw [add?, if_pos ⟨xReduced, yReduced⟩]
    exact collected
  · show (x.add y).limbs.Below (2 ^ 27) (2 ^ 26 + 2 ^ 6)
    rw [limbs]
    rcases xReduced with ⟨h0, h1, h2, h3, h4, h5, h6, h7, h8, h9⟩
    rcases yReduced with ⟨k0, k1, k2, k3, k4, k5, k6, k7, k8, k9⟩
    have even {m n : Nat} (first : m < 1 <<< 26) (second : n < 1 <<< 26) :
        m + n < 2 ^ 27 := by
      rw [Nat.shiftLeft_eq] at first second
      omega
    have odd {m n : Nat} (first : m ≤ 1 <<< 25) (second : n ≤ 1 <<< 25) :
        m + n < 2 ^ 26 + 2 ^ 6 := by
      rw [Nat.shiftLeft_eq] at first second
      omega
    exact
      ⟨even h0 k0, odd h1 k1, even h2 k2, odd h3 k3, even h4 k4, odd h5 k5,
        even h6 k6, odd h7 k7, even h8 k8, odd h9 k9⟩
  · rw [residue, value_eq, limbs, TenLimbs.weighted_sum, Nat.cast_add]
    rfl

end

end Element

end ModularLadder.Field25519
