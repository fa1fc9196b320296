import Mathlib
import ModularLadder.Proofs.Carry
import ModularLadder.Proofs.Checked
import ModularLadder.Word.Product

/-!
# Products of words are exact and do not overflow

The product from lanes multiplies and adds without looking at what overflows.
It is written once more here, for every kind of numbers that can be masked,
shifted, multiplied, added, and added with a carry that is returned.  On words
this is the product itself.  On checked numbers it has no result as soon as a
product of lanes or a sum in the high half does not fit, and so has the sum of
a product and two more words.

What both runs find is compared with the total: the high half is its quotient
by `2 ^ 64` and the low half is what remains.  The four products of lanes add
up to the total, so that no partial sum in the high half exceeds the quotient.
-/

namespace ModularLadder

namespace DoubleWord

theorem value_eq
    (double : DoubleWord) :
    double.value = 2 ^ 64 * double.high.toNat + double.low.toNat := by
  rw [value, Nat.shiftLeft_eq, Nat.one_mul]

/-- The double word with given halves, the high one first. -/
def ofHalves (halves : Word × Word) : DoubleWord :=
  { high := halves.1, low := halves.2 }

/-- The double word that checked halves have found. -/
def collect (halves : Checked 64 × Checked 64) : Option DoubleWord := do
  let high ← halves.1.result
  let low ← halves.2.result
  some { high := UInt64.ofNat high, low := UInt64.ofNat low }

end DoubleWord

/-! ## Lanes of every kind of number -/

/-- Numbers whose sums are split into a carry and what fits, in this order. -/
class SplitSum (Number : Type) where
  splitSum : Number → Number → Number × Number

export SplitSum (splitSum)

instance : SplitSum Word where
  splitSum left right :=
    ((Word.add left right).carry, (Word.add left right).result)

instance : SplitSum (Checked 64) where
  splitSum left right :=
    (Checked.combine (fun left right => some ((left + right) / 2 ^ 64))
        left right,
      Checked.combine (fun left right => some ((left + right) % 2 ^ 64))
        left right)

namespace Lanes

section

variable
  {Number : Type}
  [∀ number, OfNat Number number]
  [Add Number]
  [Mul Number]
  [AndOp Number]
  [ShiftLeft Number]
  [ShiftRight Number]
  [SplitSum Number]

/-- The upper 32 bits of a number of 64. -/
def upper (number : Number) : Number :=
  number >>> 32

/-- The lower 32 bits of a number. -/
def lower (number : Number) : Number :=
  number &&& 0xffffffff

/-- The halves of a product, from the four products of lanes. -/
def product (left right : Number) : Number × Number :=
  let lowLow := lower left * lower right
  let lowHigh := lower left * upper right
  let highLow := upper left * lower right
  let highHigh := upper left * upper right
  let first := splitSum lowLow (lower lowHigh <<< 32)
  let second := splitSum first.2 (lower highLow <<< 32)
  (highHigh + first.1 + upper lowHigh + second.1 + upper highLow, second.2)

/-- The halves of the sum of a product and two more numbers. -/
def addProduct
    (addend carry : Number)
    (product : Number × Number) :
    Number × Number :=
  let first := splitSum addend carry
  let second := splitSum first.2 product.2
  (product.1 + first.1 + second.1, second.2)

end

end Lanes

/-! ## Halves that agree -/

/-- A word as a checked number. -/
def Checked.ofWord (word : Word) : Checked 64 :=
  ⟨some word.toNat⟩

/-- Halves of a total that checked numbers and words have found alike. -/
structure HalvesAgree
    (checked : Checked 64 × Checked 64)
    (words : Word × Word)
    (total : Nat) :
    Prop where
  high : Agrees checked.1 words.1 (total / 2 ^ 64)
  low : Agrees checked.2 words.2 (total % 2 ^ 64)

namespace HalvesAgree

variable
  {checked : Checked 64 × Checked 64}
  {words : Word × Word}
  {total : Nat}

theorem collect_eq
    (agree : HalvesAgree checked words total) :
    DoubleWord.collect checked = some (DoubleWord.ofHalves words) := by
  have high : words.1.toNat = total / 2 ^ 64 := agree.high.toNat_eq
  have low : words.2.toNat = total % 2 ^ 64 := agree.low.toNat_eq
  rw [DoubleWord.collect, agree.high.unmarked, agree.low.unmarked, ← high,
    ← low]
  show some (DoubleWord.mk (UInt64.ofNat words.1.toNat) _) = _
  rw [UInt64.ofNat_toNat, UInt64.ofNat_toNat]
  rfl

theorem value_ofHalves
    (agree : HalvesAgree checked words total) :
    (DoubleWord.ofHalves words).value = total := by
  have high : words.1.toNat = total / 2 ^ 64 := agree.high.toNat_eq
  have low : words.2.toNat = total % 2 ^ 64 := agree.low.toNat_eq
  rw [DoubleWord.value_eq, DoubleWord.ofHalves, high, low]
  exact Nat.div_add_mod total (2 ^ 64)

end HalvesAgree

namespace Agrees

variable
  {left right : Checked 64}
  {leftWord rightWord : Word}
  {leftNumber rightNumber : Nat}

theorem of_eq
    {number : Nat}
    (agree : Agrees left leftWord leftNumber)
    (same : leftNumber = number) :
    Agrees left leftWord number :=
  same ▸ agree

theorem ofWord
    (word : Word) :
    Agrees (Checked.ofWord word) word word.toNat :=
  ⟨rfl, rfl, word.toNat_lt⟩

theorem upper
    (agree : Agrees left leftWord leftNumber) :
    Agrees (Lanes.upper left) (Lanes.upper leftWord)
      (leftNumber / 2 ^ 32) := by
  rw [← Nat.shiftRight_eq_div_pow]
  exact agree.shiftRight 32 (by decide)

theorem lower
    (agree : Agrees left leftWord leftNumber) :
    Agrees (Lanes.lower left) (Lanes.lower leftWord)
      (leftNumber % 2 ^ 32) := by
  rw [← Nat.and_two_pow_sub_one_eq_mod]
  exact agree.and (Agrees.ofNat 0xffffffff (by decide))

/-- A word that is shifted up without losing a bit. -/
theorem shiftLeft
    (agree : Agrees left leftWord leftNumber)
    (amount : Nat)
    (small : amount < 64)
    (room : leftNumber <<< amount < 2 ^ 64) :
    Agrees (left <<< (OfNat.ofNat amount : Checked 64))
      (leftWord <<< (OfNat.ofNat amount : Word))
      (leftNumber <<< amount) := by
  have fits : amount < 2 ^ 64 := small.trans (by decide)
  have shifted : (OfNat.ofNat amount : Checked 64).result = some amount :=
    if_pos fits
  have same : (OfNat.ofNat amount : Word).toNat = amount :=
    UInt64.toNat_ofNat_of_lt fits
  have toNat_eq : leftWord.toNat = leftNumber := agree.toNat_eq
  refine ⟨?_, ?_, room⟩
  · show (Checked.combine _ left _).result = _
    rw [Checked.combine, agree.unmarked, shifted]
    exact (if_pos small).trans (if_pos room)
  · show (leftWord <<< (OfNat.ofNat amount : Word)).toNat = _
    rw [UInt64.toNat_shiftLeft, toNat_eq, same, Nat.mod_eq_of_lt small,
      Nat.mod_eq_of_lt room]

/-- A lane that is moved up by one lane still fits. -/
theorem raise
    (agree : Agrees left leftWord leftNumber)
    (lane : leftNumber < 2 ^ 32) :
    Agrees (left <<< (32 : Checked 64)) (leftWord <<< (32 : Word))
      (2 ^ 32 * leftNumber) := by
  have raised : leftNumber <<< 32 = 2 ^ 32 * leftNumber := by
    rw [Nat.shiftLeft_eq, Nat.mul_comm]
  rw [← raised]
  exact agree.shiftLeft 32 (by decide) (by omega)

/-- Products of lanes fit. -/
theorem mulLanes
    (first : Agrees left leftWord leftNumber)
    (second : Agrees right rightWord rightNumber)
    (leftLane : leftNumber < 2 ^ 32)
    (rightLane : rightNumber < 2 ^ 32) :
    Agrees (left * right) (leftWord * rightWord)
      (leftNumber * rightNumber) :=
  first.mul second
    ((Nat.mul_lt_mul'' leftLane rightLane).trans_le (by decide))

/-- A sum and its carry are the halves of the exact sum. -/
theorem splitSum
    (first : Agrees left leftWord leftNumber)
    (second : Agrees right rightWord rightNumber) :
    HalvesAgree (splitSum left right) (splitSum leftWord rightWord)
      (leftNumber + rightNumber) := by
  have leftBound := first.bound
  have rightBound := second.bound
  have exact := Word.toNat_add leftWord rightWord
  have fits := (Word.add leftWord rightWord).result.toNat_lt
  have leftEq : leftWord.toNat = leftNumber := first.toNat_eq
  have rightEq : rightWord.toNat = rightNumber := second.toNat_eq
  rw [leftEq, rightEq] at exact
  constructor
  case high =>
    refine ⟨?_, ?_, by omega⟩
    · show (Checked.combine _ left right).result = _
      rw [Checked.combine, first.unmarked, second.unmarked]
      rfl
    · show (Word.add leftWord rightWord).carry.toNat = _
      omega
  case low =>
    refine ⟨?_, ?_, by omega⟩
    · show (Checked.combine _ left right).result = _
      rw [Checked.combine, first.unmarked, second.unmarked]
      rfl
    · show (Word.add leftWord rightWord).result.toNat = _
      omega

end Agrees

/-! ## The product from lanes -/

namespace Lanes

/-- A product is the sum of the four products of lanes, by their weights. -/
theorem mul_eq_lanes
    (left right : Nat) :
    left * right =
      left % 2 ^ 32 * (right % 2 ^ 32) +
        2 ^ 32 *
          (left % 2 ^ 32 * (right / 2 ^ 32) +
            left / 2 ^ 32 * (right % 2 ^ 32)) +
        2 ^ 64 * (left / 2 ^ 32 * (right / 2 ^ 32)) := by
  calc
    left * right =
        (left % 2 ^ 32 + 2 ^ 32 * (left / 2 ^ 32)) *
          (right % 2 ^ 32 + 2 ^ 32 * (right / 2 ^ 32)) := by
      rw [Nat.mod_add_div, Nat.mod_add_div]
    _ = _ := by ring

section

variable
  {left right : Checked 64}
  {leftWord rightWord : Word}
  {leftNumber rightNumber : Nat}

/--
The lanes find the halves of the product.  What is added up in the high half is
the quotient of the product by `2 ^ 64`, which fits, and so does each part.
-/
theorem product_agree
    (first : Agrees left leftWord leftNumber)
    (second : Agrees right rightWord rightNumber) :
    HalvesAgree (product left right) (product leftWord rightWord)
      (leftNumber * rightNumber) := by
  have leftBound := first.bound
  have rightBound := second.bound
  have leftLow : leftNumber % 2 ^ 32 < 2 ^ 32 := Nat.mod_lt _ (by decide)
  have rightLow : rightNumber % 2 ^ 32 < 2 ^ 32 := Nat.mod_lt _ (by decide)
  have leftHigh : leftNumber / 2 ^ 32 < 2 ^ 32 := by omega
  have rightHigh : rightNumber / 2 ^ 32 < 2 ^ 32 := by omega
  have lowLow := first.lower.mulLanes second.lower leftLow rightLow
  have lowHigh := first.lower.mulLanes second.upper leftLow rightHigh
  have highLow := first.upper.mulLanes second.lower leftHigh rightLow
  have highHigh := first.upper.mulLanes second.upper leftHigh rightHigh
  have lowSum :=
    lowLow.splitSum (lowHigh.lower.raise (Nat.mod_lt _ (by decide)))
  have fullSum :=
    lowSum.low.splitSum (highLow.lower.raise (Nat.mod_lt _ (by decide)))
  have exact := mul_eq_lanes leftNumber rightNumber
  have bound : leftNumber * rightNumber < 2 ^ 64 * 2 ^ 64 :=
    Nat.mul_lt_mul'' leftBound rightBound
  have highSum :=
    (((highHigh.add lowSum.high (by omega)).add lowHigh.upper
      (by omega)).add fullSum.high (by omega)).add highLow.upper (by omega)
  constructor
  case high => exact highSum.of_eq (by omega)
  case low => exact fullSum.low.of_eq (by omega)

/-- Two words that are added to a product find room in its halves. -/
theorem addProduct_agree
    {factors : Checked 64 × Checked 64}
    {factorWords : Word × Word}
    {total : Nat}
    (addend : Agrees left leftWord leftNumber)
    (carry : Agrees right rightWord rightNumber)
    (product : HalvesAgree factors factorWords total)
    (room : total ≤ (2 ^ 64 - 1) * (2 ^ 64 - 1)) :
    HalvesAgree (addProduct left right factors)
      (addProduct leftWord rightWord factorWords)
      (leftNumber + total + rightNumber) := by
  have addendBound := addend.bound
  have carryBound := carry.bound
  have first := addend.splitSum carry
  have second := first.low.splitSum product.low
  have highSum :=
    (product.high.add first.high (by omega)).add second.high (by omega)
  constructor
  case high => exact highSum.of_eq (by omega)
  case low => exact second.low.of_eq (by omega)

end

end Lanes

namespace DoubleWord

theorem value_injective :
    Function.Injective value := by
  rintro ⟨leftHigh, leftLow⟩ ⟨rightHigh, rightLow⟩ same
  have leftBound := leftLow.toNat_lt
  have rightBound := rightLow.toNat_lt
  simp only [value_eq] at same
  have high : leftHigh = rightHigh := UInt64.toNat_inj.1 (by omega)
  have low : leftLow = rightLow := UInt64.toNat_inj.1 (by omega)
  rw [high, low]

/-- The halves of a double word are those of its value. -/
theorem halvesAgree
    (double : DoubleWord) :
    HalvesAgree (Checked.ofWord double.high, Checked.ofWord double.low)
      (double.high, double.low) double.value := by
  have lowBound := double.low.toNat_lt
  rw [value_eq]
  constructor
  case high => exact (Agrees.ofWord double.high).of_eq (by omega)
  case low => exact (Agrees.ofWord double.low).of_eq (by omega)

end DoubleWord

/-! ## Products of words -/

namespace Word

/-- The product of words is the product from lanes of any numbers. -/
theorem laneProduct_eq
    (left right : Word) :
    laneProduct left right =
      DoubleWord.ofHalves (Lanes.product left right) := by
  have mask : lowMask 32 = 0xffffffff := by decide
  simp only [laneProduct, lowLane, mask]
  rfl

theorem laneProduct_agree
    (left right : Word) :
    HalvesAgree
      (Lanes.product (Checked.ofWord left) (Checked.ofWord right))
      (Lanes.product left right)
      (left.toNat * right.toNat) :=
  Lanes.product_agree (Agrees.ofWord left) (Agrees.ofWord right)

/-- The product from lanes is exact. -/
theorem value_laneProduct
    (left right : Word) :
    (laneProduct left right).value = left.toNat * right.toNat := by
  rw [laneProduct_eq]
  exact (laneProduct_agree left right).value_ofHalves

/-- A product of words fits double width. -/
theorem toNat_mul_toNat_lt
    (left right : Word) :
    left.toNat * right.toNat < 2 ^ 128 :=
  (Nat.mul_lt_mul'' left.toNat_lt right.toNat_lt).trans_le (by decide)

/-- The product in double width is exact. -/
theorem value_wideProduct
    (left right : Word) :
    (wideProduct left right).value = left.toNat * right.toNat := by
  have bound := toNat_mul_toNat_lt left right
  rw [DoubleWord.value_eq, wideProduct]
  simp only [UInt64.toNat_ofNat', Nat.shiftRight_eq_div_pow]
  omega

/-- By either method a product of words is exact. -/
theorem value_product
    (method : ProductMethod)
    (left right : Word) :
    (product method left right).value = left.toNat * right.toNat := by
  cases method with
  | lanes => exact value_laneProduct left right
  | wide => exact value_wideProduct left right

/-- The greatest product of two words leaves room for two more words. -/
theorem toNat_mul_toNat_le
    (left right : Word) :
    left.toNat * right.toNat ≤ (2 ^ 64 - 1) * (2 ^ 64 - 1) := by
  have leftBound := left.toNat_lt
  have rightBound := right.toNat_lt
  exact Nat.mul_le_mul (by omega) (by omega)

/-- The sum with a product is found in the halves of the product. -/
theorem mulAdd_agree
    (method : ProductMethod)
    (addend left right carry : Word) :
    HalvesAgree
      (Lanes.addProduct (Checked.ofWord addend) (Checked.ofWord carry)
        (Checked.ofWord (product method left right).high,
          Checked.ofWord (product method left right).low))
      (Lanes.addProduct addend carry
        ((product method left right).high, (product method left right).low))
      (addend.toNat + left.toNat * right.toNat + carry.toNat) := by
  have halves := (product method left right).halvesAgree
  rw [value_product] at halves
  exact
    Lanes.addProduct_agree (Agrees.ofWord addend) (Agrees.ofWord carry)
      halves (toNat_mul_toNat_le left right)

/-- The sum of a product and two words is exact. -/
theorem value_mulAdd
    (method : ProductMethod)
    (addend left right carry : Word) :
    (mulAdd method addend left right carry).value =
      addend.toNat + left.toNat * right.toNat + carry.toNat :=
  (mulAdd_agree method addend left right carry).value_ofHalves

/-! ## Every method of multiplication -/

/-- The checked form of `laneProduct`. -/
def laneProduct? (left right : Word) : Option DoubleWord :=
  DoubleWord.collect
    (Lanes.product (Checked.ofWord left) (Checked.ofWord right))

/-- The checked form of `wideProduct`, with a product of 128 bits. -/
def wideProduct? (left right : Word) : Option DoubleWord := do
  let leftWide : Checked 128 := ⟨some left.toNat⟩
  let rightWide : Checked 128 := ⟨some right.toNat⟩
  let product ← (leftWide * rightWide).result
  some
    { high := UInt64.ofNat (product >>> 64)
      low := UInt64.ofNat product }

/-- The checked form of `product`. -/
def product? : ProductMethod → (left right : Word) → Option DoubleWord
  | .lanes => laneProduct?
  | .wide => wideProduct?

/-- The checked form of `mulAdd`. -/
def mulAdd?
    (method : ProductMethod)
    (addend left right carry : Word) :
    Option DoubleWord := do
  let product ← product? method left right
  DoubleWord.collect
    (Lanes.addProduct (Checked.ofWord addend) (Checked.ofWord carry)
      (Checked.ofWord product.high, Checked.ofWord product.low))

/-- By either method nothing overflows in a product of words. -/
theorem product?_eq
    (method : ProductMethod)
    (left right : Word) :
    product? method left right = some (product method left right) := by
  cases method with
  | lanes =>
    show DoubleWord.collect _ = some (laneProduct left right)
    rw [laneProduct_eq]
    exact (laneProduct_agree left right).collect_eq
  | wide =>
    have fits :
        Checked.fit 128 (left.toNat * right.toNat) =
          some (left.toNat * right.toNat) :=
      if_pos (toNat_mul_toNat_lt left right)
    show (Checked.fit 128 (left.toNat * right.toNat)).bind _ = _
    rw [fits]
    rfl

/-- Nothing overflows in the sum of a product and two words. -/
theorem mulAdd?_eq
    (method : ProductMethod)
    (addend left right carry : Word) :
    mulAdd? method addend left right carry =
      some (mulAdd method addend left right carry) := by
  rw [mulAdd?, product?_eq]
  exact (mulAdd_agree method addend left right carry).collect_eq

/--
A way to multiply words that is exact and overflows nowhere, and neither does
the sum of a product and two more words.
-/
structure MultipliesExactly (method : ProductMethod) : Prop where
  product_checked (left right : Word) :
    product? method left right = some (product method left right)
  product_exact (left right : Word) :
    (product method left right).high.toNat * 2 ^ 64 +
        (product method left right).low.toNat =
      left.toNat * right.toNat
  sum_checked (addend left right carry : Word) :
    mulAdd? method addend left right carry =
      some (mulAdd method addend left right carry)
  sum_exact (addend left right carry : Word) :
    (mulAdd method addend left right carry).high.toNat * 2 ^ 64 +
        (mulAdd method addend left right carry).low.toNat =
      addend.toNat + left.toNat * right.toNat + carry.toNat

/-- Both ways to multiply words are exact, hence the same. -/
theorem methods_multiply_exactly :
    (∀ method, MultipliesExactly method) ∧
      ∀ left right, laneProduct left right = wideProduct left right := by
  constructor
  · intro method
    constructor
    case product_checked => exact product?_eq method
    case product_exact =>
      intro left right
      rw [Nat.mul_comm, ← DoubleWord.value_eq]
      exact value_product method left right
    case sum_checked => exact mulAdd?_eq method
    case sum_exact =>
      intro addend left right carry
      rw [Nat.mul_comm, ← DoubleWord.value_eq]
      exact value_mulAdd method addend left right carry
  · intro left right
    apply DoubleWord.value_injective
    rw [value_laneProduct, value_wideProduct]

/-- The greatest words leave no room at all. -/
example :
    let ones : Word := 0xFFFFFFFFFFFFFFFF
    mulAdd .lanes ones ones ones ones = { high := ones, low := ones } := by
  decide

end Word

end ModularLadder
