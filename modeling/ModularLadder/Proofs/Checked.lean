import Mathlib

/-!
# Arithmetic that notices overflow

Machine words wrap: a result that does not fit loses its high part without a
trace.  Checked numbers compute the same and keep a mark as soon as one result
has not fitted, or a difference has fallen below zero.  A computation that is
written for any kind of numbers can be run on words, on checked numbers and on
natural numbers.  If the checked run ends without the mark, nothing has
overflowed on the way, and all three runs have found the same number.
-/

namespace ModularLadder

/--
A number below `2^bits` in a computation in which nothing has overflowed, or
the mark that something has.
-/
structure Checked (bits : Nat) where
  result : Option Nat

namespace Checked

variable {bits : Nat}

/-- A number, if it fits. -/
def fit (bits number : Nat) : Option Nat :=
  if number < 2 ^ bits then some number else none

/-- The result of an operation on what two computations have found. -/
def combine
    (operation : Nat → Nat → Option Nat)
    (left right : Checked bits) :
    Checked bits :=
  ⟨left.result.bind fun leftNumber =>
    right.result.bind fun rightNumber => operation leftNumber rightNumber⟩

instance (number : Nat) : OfNat (Checked bits) number :=
  ⟨⟨fit bits number⟩⟩

instance : Add (Checked bits) :=
  ⟨combine fun left right => fit bits (left + right)⟩

instance : Mul (Checked bits) :=
  ⟨combine fun left right => fit bits (left * right)⟩

instance : Sub (Checked bits) :=
  ⟨combine fun left right =>
    if right ≤ left then some (left - right) else none⟩

instance : AndOp (Checked bits) :=
  ⟨combine fun left right => some (left &&& right)⟩

instance : ShiftRight (Checked bits) :=
  ⟨combine fun left right =>
    if right < bits then some (left >>> right) else none⟩

instance : ShiftLeft (Checked bits) :=
  ⟨combine fun left right =>
    if right < bits then fit bits (left <<< right) else none⟩

end Checked

/-- Machine words whose operations are exact as long as the results fit. -/
class MachineWord
    (Machine : Type)
    (bits : outParam Nat)
    [∀ number, OfNat Machine number]
    [Add Machine]
    [Sub Machine]
    [Mul Machine]
    [AndOp Machine]
    [ShiftRight Machine] where
  toNat : Machine → Nat
  toNat_ofNat :
    ∀ number, number < 2 ^ bits → toNat (OfNat.ofNat number) = number
  toNat_add :
    ∀ left right,
      toNat left + toNat right < 2 ^ bits →
        toNat (left + right) = toNat left + toNat right
  toNat_sub :
    ∀ left right,
      toNat right ≤ toNat left →
        toNat (left - right) = toNat left - toNat right
  toNat_mul :
    ∀ left right,
      toNat left * toNat right < 2 ^ bits →
        toNat (left * right) = toNat left * toNat right
  toNat_and :
    ∀ left right, toNat (left &&& right) = toNat left &&& toNat right
  toNat_shiftRight :
    ∀ left right,
      toNat right < bits →
        toNat (left >>> right) = toNat left >>> toNat right

instance : MachineWord UInt64 64 where
  toNat := UInt64.toNat
  toNat_ofNat := fun _ bound => UInt64.toNat_ofNat_of_lt bound
  toNat_add := by
    intro left right bound
    rw [UInt64.toNat_add, Nat.mod_eq_of_lt bound]
  toNat_sub := by
    intro left right notGreater
    exact UInt64.toNat_sub_of_le left right notGreater
  toNat_mul := by
    intro left right bound
    rw [UInt64.toNat_mul, Nat.mod_eq_of_lt bound]
  toNat_and := UInt64.toNat_and
  toNat_shiftRight := by
    intro left right bound
    rw [UInt64.toNat_shiftRight, Nat.mod_eq_of_lt bound]

instance : MachineWord UInt32 32 where
  toNat := UInt32.toNat
  toNat_ofNat := fun _ bound => UInt32.toNat_ofNat_of_lt bound
  toNat_add := by
    intro left right bound
    rw [UInt32.toNat_add, Nat.mod_eq_of_lt bound]
  toNat_sub := by
    intro left right notGreater
    exact UInt32.toNat_sub_of_le left right notGreater
  toNat_mul := by
    intro left right bound
    rw [UInt32.toNat_mul, Nat.mod_eq_of_lt bound]
  toNat_and := UInt32.toNat_and
  toNat_shiftRight := by
    intro left right bound
    rw [UInt32.toNat_shiftRight, Nat.mod_eq_of_lt bound]

section

variable
  {Machine : Type}
  {bits : Nat}
  [∀ number, OfNat Machine number]
  [Add Machine]
  [Sub Machine]
  [Mul Machine]
  [AndOp Machine]
  [ShiftRight Machine]
  [MachineWord Machine bits]

/--
A checked number, a word and a natural number that have all found the same,
without an overflow.
-/
structure Agrees
    (checked : Checked bits)
    (word : Machine)
    (number : Nat) :
    Prop where
  unmarked : checked.result = some number
  toNat_eq : MachineWord.toNat word = number
  bound : number < 2 ^ bits

namespace Agrees

variable
  {left right : Checked bits}
  {leftWord rightWord : Machine}
  {leftNumber rightNumber : Nat}

theorem ofNat
    (number : Nat)
    (bound : number < 2 ^ bits) :
    Agrees (OfNat.ofNat number : Checked bits)
      (OfNat.ofNat number : Machine) number where
  unmarked := if_pos bound
  toNat_eq := MachineWord.toNat_ofNat number bound
  bound := bound

theorem add
    (first : Agrees left leftWord leftNumber)
    (second : Agrees right rightWord rightNumber)
    (bound : leftNumber + rightNumber < 2 ^ bits) :
    Agrees (left + right) (leftWord + rightWord)
      (leftNumber + rightNumber) where
  unmarked := by
    show (Checked.combine _ left right).result = _
    rw [Checked.combine, first.unmarked, second.unmarked]
    exact if_pos bound
  toNat_eq := by
    rw [MachineWord.toNat_add, first.toNat_eq, second.toNat_eq]
    rw [first.toNat_eq, second.toNat_eq]
    exact bound
  bound := bound

theorem sub
    (first : Agrees left leftWord leftNumber)
    (second : Agrees right rightWord rightNumber)
    (notGreater : rightNumber ≤ leftNumber) :
    Agrees (left - right) (leftWord - rightWord)
      (leftNumber - rightNumber) where
  unmarked := by
    show (Checked.combine _ left right).result = _
    rw [Checked.combine, first.unmarked, second.unmarked]
    exact if_pos notGreater
  toNat_eq := by
    rw [MachineWord.toNat_sub, first.toNat_eq, second.toNat_eq]
    rw [first.toNat_eq, second.toNat_eq]
    exact notGreater
  bound := lt_of_le_of_lt (Nat.sub_le _ _) first.bound

theorem mul
    (first : Agrees left leftWord leftNumber)
    (second : Agrees right rightWord rightNumber)
    (bound : leftNumber * rightNumber < 2 ^ bits) :
    Agrees (left * right) (leftWord * rightWord)
      (leftNumber * rightNumber) where
  unmarked := by
    show (Checked.combine _ left right).result = _
    rw [Checked.combine, first.unmarked, second.unmarked]
    exact if_pos bound
  toNat_eq := by
    rw [MachineWord.toNat_mul, first.toNat_eq, second.toNat_eq]
    rw [first.toNat_eq, second.toNat_eq]
    exact bound
  bound := bound

theorem and
    (first : Agrees left leftWord leftNumber)
    (second : Agrees right rightWord rightNumber) :
    Agrees (left &&& right) (leftWord &&& rightWord)
      (leftNumber &&& rightNumber) where
  unmarked := by
    show (Checked.combine _ left right).result = _
    rw [Checked.combine, first.unmarked, second.unmarked]
    rfl
  toNat_eq := by
    rw [MachineWord.toNat_and, first.toNat_eq, second.toNat_eq]
  bound := lt_of_le_of_lt Nat.and_le_left first.bound

theorem shiftRight
    (first : Agrees left leftWord leftNumber)
    (amount : Nat)
    (small : amount < bits) :
    Agrees (left >>> (OfNat.ofNat amount : Checked bits))
      (leftWord >>> (OfNat.ofNat amount : Machine))
      (leftNumber >>> amount) := by
  have fits : amount < 2 ^ bits := lt_trans small Nat.lt_two_pow_self
  have shifted :
      (OfNat.ofNat amount : Checked bits).result = some amount :=
    if_pos fits
  have same : MachineWord.toNat (OfNat.ofNat amount : Machine) = amount :=
    MachineWord.toNat_ofNat amount fits
  refine ⟨?_, ?_, ?_⟩
  · show (Checked.combine _ left _).result = _
    rw [Checked.combine, first.unmarked, shifted]
    exact if_pos small
  · rw [MachineWord.toNat_shiftRight, same, first.toNat_eq]
    rw [same]
    exact small
  · exact lt_of_le_of_lt (Nat.shiftRight_le _ _) first.bound

/-- The high part of one number is taken up by another one. -/
theorem carryInto
    (upper : Agrees left leftWord leftNumber)
    (lower : Agrees right rightWord rightNumber)
    (amount : Nat)
    (positive : 1 ≤ amount)
    (small : amount < bits)
    (room : leftNumber < 2 ^ (bits - 1)) :
    Agrees (left + (right >>> (OfNat.ofNat amount : Checked bits)))
      (leftWord + (rightWord >>> (OfNat.ofNat amount : Machine)))
      (leftNumber + (rightNumber >>> amount)) := by
  apply upper.add (lower.shiftRight amount small)
  have lowerBound := lower.bound
  have halved : rightNumber >>> amount ≤ rightNumber / 2 := by
    rw [Nat.shiftRight_eq_div_pow]
    exact
      Nat.div_le_div_left
        (Nat.pow_le_pow_right Nat.two_pos positive : 2 ^ 1 ≤ 2 ^ amount)
        Nat.two_pos
  have doubled : 2 ^ bits = 2 * 2 ^ (bits - 1) := by
    rw [← Nat.pow_succ']
    congr 1
    omega
  omega

end Agrees

end

end ModularLadder
