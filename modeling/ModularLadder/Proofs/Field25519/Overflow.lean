import Mathlib
import ModularLadder.Proofs.Checked
import ModularLadder.Proofs.Field25519.Limbs

/-!
# The arithmetic of limbs does not overflow

Within the documented bounds the functions on ten limbs can be run on checked
numbers without ever getting the mark of an overflow, and words and natural
numbers find the same limbs.  The carries around need limbs below `2^63`; a
difference, a product by a small number and a product of loose elements leave
limbs below that.
-/

namespace ModularLadder

open Field25519

section

variable
  {Machine : Type}
  {bits : Nat}
  [∀ number, OfNat Machine number]
  [Add Machine]
  [Sub Machine]
  [Mul Machine]
  [AndOp Machine]
  [ShiftRight Machine]
  [MachineWord Machine bits]
  {checked : Checked bits}
  {word : Machine}
  {number : Nat}

theorem Agrees.low26
    (agree : Agrees checked word number)
    (wide : 26 ≤ bits) :
    Agrees (TenLimbs.low26 checked) (TenLimbs.low26 word)
      (TenLimbs.low26 number) :=
  agree.and
    (Agrees.ofNat 0x3ffffff
      (lt_of_lt_of_le (by decide) (Nat.pow_le_pow_right (by decide) wide)))

theorem Agrees.low25
    (agree : Agrees checked word number)
    (wide : 26 ≤ bits) :
    Agrees (TenLimbs.low25 checked) (TenLimbs.low25 word)
      (TenLimbs.low25 number) :=
  agree.and
    (Agrees.ofNat 0x1ffffff
      (lt_of_lt_of_le (by decide) (Nat.pow_le_pow_right (by decide) wide)))

end

namespace Field25519

/-! ## Limbs that agree -/

section

variable
  {Machine : Type}
  {bits : Nat}
  [∀ number, OfNat Machine number]
  [Add Machine]
  [Sub Machine]
  [Mul Machine]
  [AndOp Machine]
  [ShiftRight Machine]
  [MachineWord Machine bits]

/-- Limbs that agree place by place. -/
structure LimbsAgree
    (checked : TenLimbs (Checked bits))
    (words : TenLimbs Machine)
    (numbers : TenLimbs Nat) :
    Prop where
  l0 : Agrees checked.l0 words.l0 numbers.l0
  l1 : Agrees checked.l1 words.l1 numbers.l1
  l2 : Agrees checked.l2 words.l2 numbers.l2
  l3 : Agrees checked.l3 words.l3 numbers.l3
  l4 : Agrees checked.l4 words.l4 numbers.l4
  l5 : Agrees checked.l5 words.l5 numbers.l5
  l6 : Agrees checked.l6 words.l6 numbers.l6
  l7 : Agrees checked.l7 words.l7 numbers.l7
  l8 : Agrees checked.l8 words.l8 numbers.l8
  l9 : Agrees checked.l9 words.l9 numbers.l9

namespace LimbsAgree

variable
  {checked : TenLimbs (Checked bits)}
  {words : TenLimbs Machine}
  {numbers : TenLimbs Nat}

/-- The numbers are those of the words. -/
theorem numbers_eq
    (agree : LimbsAgree checked words numbers) :
    numbers = words.map MachineWord.toNat := by
  cases numbers
  simp only [TenLimbs.map, TenLimbs.mk.injEq]
  exact
    ⟨agree.l0.toNat_eq.symm, agree.l1.toNat_eq.symm, agree.l2.toNat_eq.symm,
      agree.l3.toNat_eq.symm, agree.l4.toNat_eq.symm, agree.l5.toNat_eq.symm,
      agree.l6.toNat_eq.symm, agree.l7.toNat_eq.symm, agree.l8.toNat_eq.symm,
      agree.l9.toNat_eq.symm⟩

end LimbsAgree

end

/-! ## Carries -/

section Wide

variable
  {checked checkedOther : TenLimbs (Checked 64)}
  {words wordsOther : TenLimbs UInt64}
  {numbers numbersOther : TenLimbs Nat}

namespace LimbsAgree

theorem sweep
    (agree : LimbsAgree checked words numbers)
    (below : numbers.Below (2 ^ 63) (2 ^ 63)) :
    LimbsAgree checked.sweep words.sweep numbers.sweep := by
  rcases below with ⟨h0, h1, h2, h3, h4, h5, h6, h7, h8, h9⟩
  have z1 :=
    agree.l1.carryInto agree.l0 26 (by decide) (by decide) h1
  have z2 := agree.l2.carryInto z1 25 (by decide) (by decide) h2
  have z3 := agree.l3.carryInto z2 26 (by decide) (by decide) h3
  have z4 := agree.l4.carryInto z3 25 (by decide) (by decide) h4
  have z5 := agree.l5.carryInto z4 26 (by decide) (by decide) h5
  have z6 := agree.l6.carryInto z5 25 (by decide) (by decide) h6
  have z7 := agree.l7.carryInto z6 26 (by decide) (by decide) h7
  have z8 := agree.l8.carryInto z7 25 (by decide) (by decide) h8
  have z9 := agree.l9.carryInto z8 26 (by decide) (by decide) h9
  exact
    ⟨agree.l0.low26 (by decide), z1.low25 (by decide), z2.low26 (by decide),
      z3.low25 (by decide), z4.low26 (by decide), z5.low25 (by decide),
      z6.low26 (by decide), z7.low25 (by decide), z8.low26 (by decide), z9⟩

theorem fold
    (agree : LimbsAgree checked words numbers)
    (lowest : numbers.l0 < 2 ^ 63) :
    LimbsAgree checked.fold words.fold numbers.fold := by
  have bound := agree.l9.bound
  have excess := agree.l9.shiftRight 25 (by decide)
  have nineteen : Agrees (19 : Checked 64) (19 : UInt64) 19 :=
    Agrees.ofNat 19 (by decide)
  have scaled :=
    nineteen.mul excess
      (by rw [Nat.shiftRight_eq_div_pow]; omega)
  have l0 :=
    agree.l0.add scaled (by rw [Nat.shiftRight_eq_div_pow]; omega)
  exact
    ⟨l0, agree.l1, agree.l2, agree.l3, agree.l4, agree.l5, agree.l6, agree.l7,
      agree.l8, agree.l9.low25 (by decide)⟩

theorem settle
    (agree : LimbsAgree checked words numbers)
    (second : numbers.l1 < 2 ^ 63) :
    LimbsAgree checked.settle words.settle numbers.settle := by
  have l1 :=
    agree.l1.carryInto agree.l0 26 (by decide) (by decide) second
  exact
    ⟨agree.l0.low26 (by decide), l1, agree.l2, agree.l3, agree.l4, agree.l5,
      agree.l6, agree.l7, agree.l8, agree.l9⟩

/-- Limbs below `2^63` can be carried around. -/
theorem carryAround
    (agree : LimbsAgree checked words numbers)
    (below : numbers.Below (2 ^ 63) (2 ^ 63)) :
    LimbsAgree checked.carryAround words.carryAround numbers.carryAround := by
  have swept := TenLimbs.swept_sweep numbers
  have sweptAgain := TenLimbs.swept_sweep numbers.sweep.fold
  have firstBelow :=
    (TenLimbs.firstRound_below below).mono
      (Nat.pow_le_pow_right (by decide) (by decide : 44 ≤ 63))
      (Nat.pow_le_pow_right (by decide) (by decide : 25 ≤ 63))
  have first := (agree.sweep below).fold (swept.l0.trans (by decide))
  have second :=
    (first.sweep firstBelow).fold (sweptAgain.l0.trans (by decide))
  exact second.settle (sweptAgain.l1.trans (by decide))

/-- The raised difference of loose limbs does not fall below zero. -/
theorem raisedDifference
    (agree : LimbsAgree checked words numbers)
    (agreeOther : LimbsAgree checkedOther wordsOther numbersOther)
    (below : numbers.Below (2 ^ 27) (2 ^ 26 + 2 ^ 6))
    (belowOther : numbersOther.Below (2 ^ 27) (2 ^ 26 + 2 ^ 6)) :
    LimbsAgree (checked.raisedDifference checkedOther)
      (words.raisedDifference wordsOther)
      (numbers.raisedDifference numbersOther) := by
  rcases below with ⟨h0, h1, h2, h3, h4, h5, h6, h7, h8, h9⟩
  rcases belowOther with ⟨k0, k1, k2, k3, k4, k5, k6, k7, k8, k9⟩
  have rule {c d : Checked 64} {v w : UInt64} {m n : Nat}
      (first : Agrees c v m) (second : Agrees d w n)
      (raise : Nat) (raise_lt : raise < 2 ^ 28)
      (m_lt : m < 2 ^ 27) (n_lt : n ≤ raise) :
      Agrees (c + OfNat.ofNat raise - d) (v + OfNat.ofNat raise - w)
        (m + raise - n) :=
    (first.add (Agrees.ofNat raise (by omega)) (by omega)).sub second
      (by omega)
  exact
    ⟨rule agree.l0 agreeOther.l0 0xfffffb4 (by decide) h0 (by omega),
      rule agree.l1 agreeOther.l1 0x7fffffc (by decide) (by omega) (by omega),
      rule agree.l2 agreeOther.l2 0xffffffc (by decide) h2 (by omega),
      rule agree.l3 agreeOther.l3 0x7fffffc (by decide) (by omega) (by omega),
      rule agree.l4 agreeOther.l4 0xffffffc (by decide) h4 (by omega),
      rule agree.l5 agreeOther.l5 0x7fffffc (by decide) (by omega) (by omega),
      rule agree.l6 agreeOther.l6 0xffffffc (by decide) h6 (by omega),
      rule agree.l7 agreeOther.l7 0x7fffffc (by decide) (by omega) (by omega),
      rule agree.l8 agreeOther.l8 0xffffffc (by decide) h8 (by omega),
      rule agree.l9 agreeOther.l9 0x7fffffc (by decide) (by omega) (by omega)⟩

end LimbsAgree

end Wide

/-! ## The parts of one limb of a product -/

/-- A factor from the left operand of a product, doubled or not. -/
structure LeftFactor
    (checked : Checked 64)
    (word : UInt64)
    (number : Nat) :
    Prop where
  agrees : Agrees checked word number
  bound : number ≤ 2 ^ 28

/-- A factor from the right operand of a product, wrapped around or not. -/
structure RightFactor
    (checked : Checked 64)
    (word : UInt64)
    (number : Nat) :
    Prop where
  agrees : Agrees checked word number
  bound : number ≤ 19 * 2 ^ 27

/--
A sum of products of limbs that stays below `2^63` if so many more products
are added.
-/
structure PartialProduct
    (remaining : Nat)
    (checked : Checked 64)
    (word : UInt64)
    (number : Nat) :
    Prop where
  agrees : Agrees checked word number
  room : number + remaining * (19 * 2 ^ 55) < 2 ^ 63

section Product

variable
  {c d sum : Checked 64}
  {v w sumWord : UInt64}
  {m n sumNumber : Nat}

theorem LeftFactor.mul_le
    (left : LeftFactor c v m)
    (right : RightFactor d w n) :
    m * n ≤ 19 * 2 ^ 55 := by
  have bound := Nat.mul_le_mul left.bound right.bound
  omega

theorem PartialProduct.first
    (left : LeftFactor c v m)
    (right : RightFactor d w n) :
    PartialProduct 9 (c * d) (v * w) (m * n) := by
  have bound := left.mul_le right
  constructor
  · apply left.agrees.mul right.agrees
    omega
  · omega

theorem PartialProduct.next
    {remaining : Nat}
    (accumulated : PartialProduct (remaining + 1) sum sumWord sumNumber)
    (left : LeftFactor c v m)
    (right : RightFactor d w n) :
    PartialProduct remaining (sum + c * d) (sumWord + v * w)
      (sumNumber + m * n) := by
  have bound := left.mul_le right
  have room := accumulated.room
  rw [Nat.add_mul, Nat.one_mul] at room
  constructor
  · apply accumulated.agrees.add
    · apply left.agrees.mul right.agrees
      omega
    · omega
  · omega

theorem PartialProduct.lt
    (accumulated : PartialProduct 0 sum sumWord sumNumber) :
    sumNumber < 2 ^ 63 := by
  have room := accumulated.room
  omega

/-- A limb of the left operand. -/
theorem LeftFactor.plain
    (agrees : Agrees c v m)
    (below : m < 2 ^ 27) :
    LeftFactor c v m :=
  ⟨agrees, by omega⟩

/-- An odd limb of the left operand that meets another odd limb. -/
theorem LeftFactor.double
    (agrees : Agrees c v m)
    (below : m < 2 ^ 26 + 2 ^ 6) :
    LeftFactor (2 * c) (2 * v) (2 * m) := by
  have two : Agrees (2 : Checked 64) (2 : UInt64) 2 :=
    Agrees.ofNat 2 (by decide)
  constructor
  · apply two.mul agrees
    omega
  · omega

/-- A limb of the right operand. -/
theorem RightFactor.plain
    (agrees : Agrees d w n)
    (below : n < 2 ^ 27) :
    RightFactor d w n :=
  ⟨agrees, by omega⟩

/-- A limb of the right operand that wraps around. -/
theorem RightFactor.wrap
    (agrees : Agrees d w n)
    (below : n < 2 ^ 27) :
    RightFactor (19 * d) (19 * w) (19 * n) := by
  have nineteen : Agrees (19 : Checked 64) (19 : UInt64) 19 :=
    Agrees.ofNat 19 (by decide)
  constructor
  · apply nineteen.mul agrees
    omega
  · omega

end Product

/-! ## All limbs of a product -/

section

variable
  {checked checkedOther : TenLimbs (Checked 64)}
  {words wordsOther : TenLimbs UInt64}
  {numbers numbersOther : TenLimbs Nat}

/-- The limbs of a left operand, and the doubles of those with odd indices. -/
structure LeftFactors
    (checked : TenLimbs (Checked 64))
    (words : TenLimbs UInt64)
    (numbers : TenLimbs Nat) :
    Prop where
  a0 : LeftFactor checked.l0 words.l0 numbers.l0
  a1 : LeftFactor checked.l1 words.l1 numbers.l1
  a2 : LeftFactor checked.l2 words.l2 numbers.l2
  a3 : LeftFactor checked.l3 words.l3 numbers.l3
  a4 : LeftFactor checked.l4 words.l4 numbers.l4
  a5 : LeftFactor checked.l5 words.l5 numbers.l5
  a6 : LeftFactor checked.l6 words.l6 numbers.l6
  a7 : LeftFactor checked.l7 words.l7 numbers.l7
  a8 : LeftFactor checked.l8 words.l8 numbers.l8
  a9 : LeftFactor checked.l9 words.l9 numbers.l9
  d1 : LeftFactor (2 * checked.l1) (2 * words.l1) (2 * numbers.l1)
  d3 : LeftFactor (2 * checked.l3) (2 * words.l3) (2 * numbers.l3)
  d5 : LeftFactor (2 * checked.l5) (2 * words.l5) (2 * numbers.l5)
  d7 : LeftFactor (2 * checked.l7) (2 * words.l7) (2 * numbers.l7)
  d9 : LeftFactor (2 * checked.l9) (2 * words.l9) (2 * numbers.l9)

/-- The limbs of a right operand, wrapped around and not. -/
structure RightFactors
    (checked : TenLimbs (Checked 64))
    (words : TenLimbs UInt64)
    (numbers : TenLimbs Nat) :
    Prop where
  b0 : RightFactor checked.l0 words.l0 numbers.l0
  b1 : RightFactor checked.l1 words.l1 numbers.l1
  b2 : RightFactor checked.l2 words.l2 numbers.l2
  b3 : RightFactor checked.l3 words.l3 numbers.l3
  b4 : RightFactor checked.l4 words.l4 numbers.l4
  b5 : RightFactor checked.l5 words.l5 numbers.l5
  b6 : RightFactor checked.l6 words.l6 numbers.l6
  b7 : RightFactor checked.l7 words.l7 numbers.l7
  b8 : RightFactor checked.l8 words.l8 numbers.l8
  b9 : RightFactor checked.l9 words.l9 numbers.l9
  w1 : RightFactor (19 * checked.l1) (19 * words.l1) (19 * numbers.l1)
  w2 : RightFactor (19 * checked.l2) (19 * words.l2) (19 * numbers.l2)
  w3 : RightFactor (19 * checked.l3) (19 * words.l3) (19 * numbers.l3)
  w4 : RightFactor (19 * checked.l4) (19 * words.l4) (19 * numbers.l4)
  w5 : RightFactor (19 * checked.l5) (19 * words.l5) (19 * numbers.l5)
  w6 : RightFactor (19 * checked.l6) (19 * words.l6) (19 * numbers.l6)
  w7 : RightFactor (19 * checked.l7) (19 * words.l7) (19 * numbers.l7)
  w8 : RightFactor (19 * checked.l8) (19 * words.l8) (19 * numbers.l8)
  w9 : RightFactor (19 * checked.l9) (19 * words.l9) (19 * numbers.l9)

theorem LimbsAgree.leftFactors
    (agree : LimbsAgree checked words numbers)
    (below : numbers.Below (2 ^ 27) (2 ^ 26 + 2 ^ 6)) :
    LeftFactors checked words numbers := by
  rcases below with ⟨h0, h1, h2, h3, h4, h5, h6, h7, h8, h9⟩
  exact
    { a0 := LeftFactor.plain agree.l0 h0
      a1 := LeftFactor.plain agree.l1 (by omega)
      a2 := LeftFactor.plain agree.l2 h2
      a3 := LeftFactor.plain agree.l3 (by omega)
      a4 := LeftFactor.plain agree.l4 h4
      a5 := LeftFactor.plain agree.l5 (by omega)
      a6 := LeftFactor.plain agree.l6 h6
      a7 := LeftFactor.plain agree.l7 (by omega)
      a8 := LeftFactor.plain agree.l8 h8
      a9 := LeftFactor.plain agree.l9 (by omega)
      d1 := LeftFactor.double agree.l1 h1
      d3 := LeftFactor.double agree.l3 h3
      d5 := LeftFactor.double agree.l5 h5
      d7 := LeftFactor.double agree.l7 h7
      d9 := LeftFactor.double agree.l9 h9 }

theorem LimbsAgree.rightFactors
    (agree : LimbsAgree checked words numbers)
    (below : numbers.Below (2 ^ 27) (2 ^ 26 + 2 ^ 6)) :
    RightFactors checked words numbers := by
  rcases below.mono (le_refl (2 ^ 27)) (by decide : _ ≤ 2 ^ 27) with
    ⟨h0, h1, h2, h3, h4, h5, h6, h7, h8, h9⟩
  exact
    { b0 := RightFactor.plain agree.l0 h0
      b1 := RightFactor.plain agree.l1 h1
      b2 := RightFactor.plain agree.l2 h2
      b3 := RightFactor.plain agree.l3 h3
      b4 := RightFactor.plain agree.l4 h4
      b5 := RightFactor.plain agree.l5 h5
      b6 := RightFactor.plain agree.l6 h6
      b7 := RightFactor.plain agree.l7 h7
      b8 := RightFactor.plain agree.l8 h8
      b9 := RightFactor.plain agree.l9 h9
      w1 := RightFactor.wrap agree.l1 h1
      w2 := RightFactor.wrap agree.l2 h2
      w3 := RightFactor.wrap agree.l3 h3
      w4 := RightFactor.wrap agree.l4 h4
      w5 := RightFactor.wrap agree.l5 h5
      w6 := RightFactor.wrap agree.l6 h6
      w7 := RightFactor.wrap agree.l7 h7
      w8 := RightFactor.wrap agree.l8 h8
      w9 := RightFactor.wrap agree.l9 h9 }

/-- The products of loose limbs stay below `2^63`. -/
theorem product_agree
    (agree : LimbsAgree checked words numbers)
    (agreeOther : LimbsAgree checkedOther wordsOther numbersOther)
    (below : numbers.Below (2 ^ 27) (2 ^ 26 + 2 ^ 6))
    (belowOther : numbersOther.Below (2 ^ 27) (2 ^ 26 + 2 ^ 6)) :
    LimbsAgree (checked.product checkedOther) (words.product wordsOther)
        (numbers.product numbersOther) ∧
      (numbers.product numbersOther).Below (2 ^ 63) (2 ^ 63) := by
  rcases agree.leftFactors below with
    ⟨a0, a1, a2, a3, a4, a5, a6, a7, a8, a9, d1, d3, d5, d7, d9⟩
  rcases agreeOther.rightFactors belowOther with
    ⟨b0, b1, b2, b3, b4, b5, b6, b7, b8, b9, w1, w2, w3, w4, w5, w6, w7, w8,
      w9⟩
  have l0 :=
    (PartialProduct.first a0 b0)
      |>.next d1 w9 |>.next a2 w8 |>.next d3 w7
      |>.next a4 w6 |>.next d5 w5 |>.next a6 w4
      |>.next d7 w3 |>.next a8 w2 |>.next d9 w1
  have l1 :=
    (PartialProduct.first a0 b1)
      |>.next a1 b0 |>.next a2 w9 |>.next a3 w8
      |>.next a4 w7 |>.next a5 w6 |>.next a6 w5
      |>.next a7 w4 |>.next a8 w3 |>.next a9 w2
  have l2 :=
    (PartialProduct.first a0 b2)
      |>.next d1 b1 |>.next a2 b0 |>.next d3 w9
      |>.next a4 w8 |>.next d5 w7 |>.next a6 w6
      |>.next d7 w5 |>.next a8 w4 |>.next d9 w3
  have l3 :=
    (PartialProduct.first a0 b3)
      |>.next a1 b2 |>.next a2 b1 |>.next a3 b0
      |>.next a4 w9 |>.next a5 w8 |>.next a6 w7
      |>.next a7 w6 |>.next a8 w5 |>.next a9 w4
  have l4 :=
    (PartialProduct.first a0 b4)
      |>.next d1 b3 |>.next a2 b2 |>.next d3 b1
      |>.next a4 b0 |>.next d5 w9 |>.next a6 w8
      |>.next d7 w7 |>.next a8 w6 |>.next d9 w5
  have l5 :=
    (PartialProduct.first a0 b5)
      |>.next a1 b4 |>.next a2 b3 |>.next a3 b2
      |>.next a4 b1 |>.next a5 b0 |>.next a6 w9
      |>.next a7 w8 |>.next a8 w7 |>.next a9 w6
  have l6 :=
    (PartialProduct.first a0 b6)
      |>.next d1 b5 |>.next a2 b4 |>.next d3 b3
      |>.next a4 b2 |>.next d5 b1 |>.next a6 b0
      |>.next d7 w9 |>.next a8 w8 |>.next d9 w7
  have l7 :=
    (PartialProduct.first a0 b7)
      |>.next a1 b6 |>.next a2 b5 |>.next a3 b4
      |>.next a4 b3 |>.next a5 b2 |>.next a6 b1
      |>.next a7 b0 |>.next a8 w9 |>.next a9 w8
  have l8 :=
    (PartialProduct.first a0 b8)
      |>.next d1 b7 |>.next a2 b6 |>.next d3 b5
      |>.next a4 b4 |>.next d5 b3 |>.next a6 b2
      |>.next d7 b1 |>.next a8 b0 |>.next d9 w9
  have l9 :=
    (PartialProduct.first a0 b9)
      |>.next a1 b8 |>.next a2 b7 |>.next a3 b6
      |>.next a4 b5 |>.next a5 b4 |>.next a6 b3
      |>.next a7 b2 |>.next a8 b1 |>.next a9 b0
  constructor
  · exact
      ⟨l0.agrees, l1.agrees, l2.agrees, l3.agrees, l4.agrees, l5.agrees,
        l6.agrees, l7.agrees, l8.agrees, l9.agrees⟩
  · exact
      ⟨l0.lt, l1.lt, l2.lt, l3.lt, l4.lt, l5.lt, l6.lt, l7.lt, l8.lt, l9.lt⟩

/-! ## Small products and sums -/

/-- The product of loose limbs by a 32-bit number stays below `2^63`. -/
theorem scaled_agree
    {factor : Checked 64}
    {factorWord : UInt64}
    {factorNumber : Nat}
    (agree : LimbsAgree checked words numbers)
    (factorAgrees : Agrees factor factorWord factorNumber)
    (below : numbers.Below (2 ^ 27) (2 ^ 26 + 2 ^ 6))
    (factorBelow : factorNumber < 2 ^ 32) :
    LimbsAgree (checked.map (· * factor)) (words.map (· * factorWord))
        (numbers.map (· * factorNumber)) ∧
      (numbers.map (· * factorNumber)).Below (2 ^ 63) (2 ^ 63) := by
  rcases below with ⟨h0, h1, h2, h3, h4, h5, h6, h7, h8, h9⟩
  have bound {limb : Nat} (limb_lt : limb < 2 ^ 27) :
      limb * factorNumber < 2 ^ 63 := by
    have product := Nat.mul_lt_mul'' limb_lt factorBelow
    omega
  have rule {c : Checked 64} {v : UInt64} {limb : Nat}
      (agrees : Agrees c v limb) (limb_lt : limb < 2 ^ 27) :
      Agrees (c * factor) (v * factorWord) (limb * factorNumber) :=
    agrees.mul factorAgrees ((bound limb_lt).trans (by decide))
  constructor
  · exact
      ⟨rule agree.l0 h0, rule agree.l1 (by omega), rule agree.l2 h2,
        rule agree.l3 (by omega), rule agree.l4 h4, rule agree.l5 (by omega),
        rule agree.l6 h6, rule agree.l7 (by omega), rule agree.l8 h8,
        rule agree.l9 (by omega)⟩
  · exact
      ⟨bound h0, bound (by omega), bound h2, bound (by omega), bound h4,
        bound (by omega), bound h6, bound (by omega), bound h8,
        bound (by omega)⟩

end

theorem sum_agree
    {checked checkedOther : TenLimbs (Checked 32)}
    {words wordsOther : TenLimbs UInt32}
    {numbers numbersOther : TenLimbs Nat}
    (agree : LimbsAgree checked words numbers)
    (agreeOther : LimbsAgree checkedOther wordsOther numbersOther)
    (below : numbers.Below (2 ^ 31) (2 ^ 31))
    (belowOther : numbersOther.Below (2 ^ 31) (2 ^ 31)) :
    LimbsAgree (checked.sum checkedOther) (words.sum wordsOther)
      (numbers.sum numbersOther) := by
  rcases below with ⟨h0, h1, h2, h3, h4, h5, h6, h7, h8, h9⟩
  rcases belowOther with ⟨k0, k1, k2, k3, k4, k5, k6, k7, k8, k9⟩
  exact
    ⟨agree.l0.add agreeOther.l0 (by omega),
      agree.l1.add agreeOther.l1 (by omega),
      agree.l2.add agreeOther.l2 (by omega),
      agree.l3.add agreeOther.l3 (by omega),
      agree.l4.add agreeOther.l4 (by omega),
      agree.l5.add agreeOther.l5 (by omega),
      agree.l6.add agreeOther.l6 (by omega),
      agree.l7.add agreeOther.l7 (by omega),
      agree.l8.add agreeOther.l8 (by omega),
      agree.l9.add agreeOther.l9 (by omega)⟩

end Field25519

end ModularLadder
