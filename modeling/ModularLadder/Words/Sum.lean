import ModularLadder.Word.Choice
import ModularLadder.Words

/-!
# Sums and differences of long numbers

Carries run from the lowest word up.  Each operation returns what leaves the
highest word, so that the result and the carry together are exact.

The conditional forms run through the same motions whether or not the choice
is set: an unset choice adds or subtracts zero.  Their second operand may be
the shorter one and counts as extended by zeros.
-/

namespace ModularLadder.Words

/-- The sum of two numbers of equal width and an incoming carry. -/
def addFrom (carry : Word) : (left right : Words) → Carried Words
  | leftWord :: left, rightWord :: right =>
    let lowest := Word.addWithCarry leftWord rightWord carry
    let upper := addFrom lowest.carry left right
    { carry := upper.carry, result := lowest.result :: upper.result }
  | _, _ => { carry := carry, result := [] }

/-- The sum of two numbers of equal width. -/
def add (left right : Words) : Carried Words :=
  addFrom 0 left right

/-- The difference of two numbers of equal width less an incoming borrow. -/
def subFrom (borrow : Word) : (left right : Words) → Carried Words
  | leftWord :: left, rightWord :: right =>
    let lowest := Word.subWithBorrow leftWord rightWord borrow
    let upper := subFrom lowest.carry left right
    { carry := upper.carry, result := lowest.result :: upper.result }
  | _, _ => { carry := borrow, result := [] }

/-- The difference of two numbers of equal width, with its borrow. -/
def sub (left right : Words) : Carried Words :=
  subFrom 0 left right

/--
A number stretched to a width by zeros, every word replaced by zero unless the
choice is set.
-/
def maskedOperand (choice : Choice) (width : Nat) (operand : Words) : Words :=
  (List.range width).map fun index => choice.select 0 (operand.getD index 0)

/-- Adds the second number to the first one if the choice is set. -/
def addIf (number addend : Words) (choice : Choice) : Carried Words :=
  addFrom 0 number (maskedOperand choice number.length addend)

/-- Subtracts the second number from the first one if the choice is set. -/
def subIf (number subtrahend : Words) (choice : Choice) : Carried Words :=
  subFrom 0 number (maskedOperand choice number.length subtrahend)

/-- Adds a number that is not wider to the first one. -/
def addShort (number addend : Words) : Carried Words :=
  addIf number addend Choice.yes

/-- Subtracts a number that is not wider from the first one. -/
def subShort (number subtrahend : Words) : Carried Words :=
  subIf number subtrahend Choice.yes

/--
Adds a single word, which travels up as the carry.  Without any word to take
it up, the word itself is carried out.
-/
def addWord (word : Word) : (number : Words) → Carried Words
  | [] => { carry := word, result := [] }
  | lowest :: rest =>
    let sum := Word.add lowest word
    let upper := addWord sum.carry rest
    { carry := upper.carry, result := sum.result :: upper.result }

/-- Doubles a number and moves an incoming bit into the lowest place. -/
def doubleFrom (bit : Word) : (number : Words) → Carried Words
  | [] => { carry := bit, result := [] }
  | lowest :: rest =>
    let upper := doubleFrom (lowest >>> 63) rest
    { carry := upper.carry
      result := ((lowest <<< 1) ||| bit) :: upper.result }

/-- Doubles a number; the bit that leaves at the top is carried. -/
def double (number : Words) : Carried Words :=
  doubleFrom 0 number

@[simp]
theorem length_addFrom
    (carry : Word)
    (left right : Words)
    (sameWidth : right.length = left.length) :
    (addFrom carry left right).result.length = left.length := by
  induction left generalizing carry right with
  | nil => simp [addFrom]
  | cons leftWord left ih =>
    cases right with
    | nil => simp at sameWidth
    | cons rightWord right =>
      simpa [addFrom] using ih _ right (by simpa using sameWidth)

@[simp]
theorem length_subFrom
    (borrow : Word)
    (left right : Words)
    (sameWidth : right.length = left.length) :
    (subFrom borrow left right).result.length = left.length := by
  induction left generalizing borrow right with
  | nil => simp [subFrom]
  | cons leftWord left ih =>
    cases right with
    | nil => simp at sameWidth
    | cons rightWord right =>
      simpa [subFrom] using ih _ right (by simpa using sameWidth)

@[simp]
theorem length_maskedOperand
    (choice : Choice)
    (width : Nat)
    (operand : Words) :
    (maskedOperand choice width operand).length = width := by
  simp [maskedOperand]

@[simp]
theorem length_addWord
    (word : Word)
    (number : Words) :
    (addWord word number).result.length = number.length := by
  induction number generalizing word with
  | nil => rfl
  | cons lowest rest ih => simp [addWord, ih]

@[simp]
theorem length_doubleFrom
    (bit : Word)
    (number : Words) :
    (doubleFrom bit number).result.length = number.length := by
  induction number generalizing bit with
  | nil => rfl
  | cons lowest rest ih => simp [doubleFrom, ih]

end ModularLadder.Words
