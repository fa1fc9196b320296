import Mathlib
import ModularLadder.Proofs.Carry
import ModularLadder.Words.Selection

/-!
# Choices as truth values

A choice that is made from a single bit is the choice of a truth value, and
the connectives on masks are those of truth values.  Selection by such a
choice is selection by its truth value: between words, between the narrower
numbers that take a part of the mask, and between long numbers of equal width.

Comparisons of single words are choices of the comparisons of their numbers.
-/

namespace ModularLadder

namespace Choice

@[simp]
theorem yes_eq :
    yes = ofBool true :=
  rfl

@[simp]
theorem no_eq :
    no = ofBool false :=
  rfl

/-- A bit makes the choice of whether it is set. -/
theorem ofBit_eq
    (bit : Word)
    (bound : bit.toNat ≤ 1) :
    ofBit bit = ofBool (decide (bit.toNat = 1)) := by
  rcases Nat.le_one_iff_eq_zero_or_eq_one.1 bound with clear | set
  · have bitZero : bit = 0 := UInt64.toNat_inj.1 clear
    rw [bitZero]
    rfl
  · have bitOne : bit = 1 := UInt64.toNat_inj.1 set
    rw [bitOne]
    rfl

/-- Every word makes the choice of whether it differs from zero. -/
@[simp]
theorem ofNonzero_eq
    (word : Word) :
    ofNonzero word = ofBool (decide (word ≠ 0)) := by
  have bit := Word.toNat_isNonzero word
  have bound : (Word.isNonzero word).toNat ≤ 1 := by
    rw [bit]
    split <;> omega
  rw [ofNonzero, ofBit_eq _ bound, bit]
  by_cases zero : word = 0 <;> simp [zero]

@[simp]
theorem not_ofBool
    (condition : Bool) :
    ~~~ofBool condition = ofBool (!condition) := by
  cases condition <;> rfl

@[simp]
theorem and_ofBool
    (left right : Bool) :
    ofBool left &&& ofBool right = ofBool (left && right) := by
  cases left <;> cases right <;> rfl

@[simp]
theorem or_ofBool
    (left right : Bool) :
    ofBool left ||| ofBool right = ofBool (left || right) := by
  cases left <;> cases right <;> rfl

@[simp]
theorem xor_ofBool
    (left right : Bool) :
    ofBool left ^^^ ofBool right = ofBool (left ^^ right) := by
  cases left <;> cases right <;> rfl

@[simp]
theorem isSet_ofBool
    (condition : Bool) :
    (ofBool condition).isSet = condition := by
  cases condition <;> rfl

/-- The mask of a truth value is all ones or all zeros. -/
@[simp]
theorem mask_ofBool
    (condition : Bool) :
    (ofBool condition).mask = if condition then -1 else 0 := by
  cases condition <;> rfl

/-- Selection between words by a truth value. -/
@[simp]
theorem select_ofBool
    (condition : Bool)
    (unset set : Word) :
    (ofBool condition).select unset set = if condition then set else unset := by
  rw [select, mask_ofBool]
  cases condition with
  | false => simp
  | true =>
    apply UInt64.toBitVec_inj.1
    have ones : (-1 : UInt64).toBitVec = BitVec.allOnes 64 := rfl
    simp only [if_true, UInt64.toBitVec_xor, UInt64.toBitVec_and, ones,
      BitVec.allOnes_and, ← BitVec.xor_assoc, BitVec.xor_self,
      BitVec.zero_xor]

/-- Selection between 32-bit values by a truth value. -/
@[simp]
theorem select32_ofBool
    (condition : Bool)
    (unset set : UInt32) :
    (ofBool condition).select32 unset set =
      if condition then set else unset := by
  rw [select32, mask_ofBool]
  cases condition with
  | false => simp
  | true =>
    apply UInt32.toBitVec_inj.1
    have ones : (-1 : UInt64).toUInt32.toBitVec = BitVec.allOnes 32 := rfl
    simp only [if_true, UInt32.toBitVec_xor, UInt32.toBitVec_and, ones,
      BitVec.allOnes_and, ← BitVec.xor_assoc, BitVec.xor_self,
      BitVec.zero_xor]

/-- Selection between bytes by a truth value. -/
@[simp]
theorem select8_ofBool
    (condition : Bool)
    (unset set : UInt8) :
    (ofBool condition).select8 unset set =
      if condition then set else unset := by
  rw [select8, mask_ofBool]
  cases condition with
  | false => simp
  | true =>
    apply UInt8.toBitVec_inj.1
    have ones : (-1 : UInt64).toUInt8.toBitVec = BitVec.allOnes 8 := rfl
    simp only [if_true, UInt8.toBitVec_xor, UInt8.toBitVec_and, ones,
      BitVec.allOnes_and, ← BitVec.xor_assoc, BitVec.xor_self,
      BitVec.zero_xor]

end Choice

namespace Word

/-- Whether a word is zero, as a bit. -/
theorem toNat_isZero
    (word : Word) :
    (isZero word).toNat = if word = 0 then 1 else 0 := by
  rw [isZero, UInt64.toNat_xor, toNat_isNonzero]
  by_cases zero : word = 0 <;> simp [zero]

@[simp]
theorem ofBit_isZero
    (word : Word) :
    Choice.ofBit (isZero word) = Choice.ofBool (decide (word = 0)) := by
  have bit := toNat_isZero word
  have bound : (isZero word).toNat ≤ 1 := by
    rw [bit]
    split <;> omega
  rw [Choice.ofBit_eq _ bound, bit]
  by_cases zero : word = 0 <;> simp [zero]

/-- Two words are chosen as equal exactly if they are. -/
@[simp]
theorem eq_eq
    (left right : Word) :
    eq left right = Choice.ofBool (decide (left = right)) := by
  rw [eq, ofBit_isZero]
  congr 1
  simp

/-- No more than one is borrowed by a difference of words. -/
theorem borrow_sub_le
    (left right : Word) :
    (sub left right).carry.toNat ≤ 1 := by
  have leftBound := left.toNat_lt
  have rightBound := right.toNat_lt
  have exact := toNat_sub left right
  have resultBound := (sub left right).result.toNat_lt
  omega

/-- A difference borrows exactly if the subtrahend is greater. -/
@[simp]
theorem lt_eq
    (left right : Word) :
    lt left right = Choice.ofBool (decide (left.toNat < right.toNat)) := by
  have leftBound := left.toNat_lt
  have rightBound := right.toNat_lt
  have exact := toNat_sub left right
  have resultBound := (sub left right).result.toNat_lt
  rw [lt, Choice.ofBit_eq _ (borrow_sub_le left right)]
  congr 1
  apply decide_eq_decide.2
  omega

@[simp]
theorem gt_eq
    (left right : Word) :
    gt left right = Choice.ofBool (decide (right.toNat < left.toNat)) :=
  lt_eq right left

end Word

namespace Words

/-- Selection between long numbers of equal width by a truth value. -/
@[simp]
theorem select_ofBool
    (unset set : Words)
    (condition : Bool)
    (sameWidth : set.length = unset.length) :
    select unset set (Choice.ofBool condition) =
      if condition then set else unset := by
  cases condition with
  | false =>
    apply List.ext_getElem
    · simp [sameWidth]
    · intro index _ _
      simp [select]
  | true =>
    apply List.ext_getElem
    · simp [sameWidth]
    · intro index _ _
      simp [select]

@[simp]
theorem assignIf_ofBool
    (number replacement : Words)
    (condition : Bool)
    (sameWidth : replacement.length = number.length) :
    assignIf number replacement (Choice.ofBool condition) =
      if condition then replacement else number :=
  select_ofBool number replacement condition sameWidth

@[simp]
theorem swapIf_ofBool
    (left right : Words)
    (condition : Bool)
    (sameWidth : right.length = left.length) :
    swapIf left right (Choice.ofBool condition) =
      if condition then (right, left) else (left, right) := by
  have first := select_ofBool left right condition sameWidth
  have second := select_ofBool right left condition sameWidth.symm
  rw [select] at first second
  rw [swapIf, first, second]
  cases condition <;> rfl

end Words

end ModularLadder
