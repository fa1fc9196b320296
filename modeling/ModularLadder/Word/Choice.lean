import ModularLadder.Word

/-!
# Choices as masks

A condition that depends on secret data is never branched on.  It is held as
a word that is all zeros or all ones, and picks one of two values by masking
the bits in which they differ.  The usual connectives act on the masks.

The comparisons of single words live here as well: each of them answers with
a choice, obtained from the zero test or from the borrow of a subtraction.
-/

namespace ModularLadder

/-- A condition held as a mask of all zeros or all ones. -/
structure Choice where
  mask : Word
  deriving Repr

namespace Choice

/-- The choice for a word that is zero or one. -/
def ofBit (bit : Word) : Choice :=
  ⟨0 - bit⟩

/-- The choice that is set by every nonzero word. -/
def ofNonzero (word : Word) : Choice :=
  ofBit (Word.isNonzero word)

/-- The choice for a truth value. -/
def ofBool (condition : Bool) : Choice :=
  ofBit (if condition then 1 else 0)

/-- The choice that holds. -/
def yes : Choice :=
  ofBit 1

/-- The choice that does not hold. -/
def no : Choice :=
  ofBit 0

instance : Inhabited Choice :=
  ⟨no⟩

/-- The truth value of a choice, read off the lowest bit of its mask. -/
def isSet (choice : Choice) : Bool :=
  choice.mask &&& 1 != 0

instance : Complement Choice where
  complement choice := ⟨~~~choice.mask⟩

instance : AndOp Choice where
  and left right := ⟨left.mask &&& right.mask⟩

instance : OrOp Choice where
  or left right := ⟨left.mask ||| right.mask⟩

instance : XorOp Choice where
  xor left right := ⟨left.mask ^^^ right.mask⟩

/-- The first word if the choice is unset, the second one if it is set. -/
def select (choice : Choice) (unset set : Word) : Word :=
  unset ^^^ (choice.mask &&& (unset ^^^ set))

/-- Selection between 32-bit values, by the lower half of the mask. -/
def select32 (choice : Choice) (unset set : UInt32) : UInt32 :=
  unset ^^^ (choice.mask.toUInt32 &&& (unset ^^^ set))

/-- Selection between bytes, by the lowest byte of the mask. -/
def select8 (choice : Choice) (unset set : UInt8) : UInt8 :=
  unset ^^^ (choice.mask.toUInt8 &&& (unset ^^^ set))

end Choice

namespace Word

/-- Two words are equal if no bit differs. -/
def eq (left right : Word) : Choice :=
  Choice.ofBit (isZero (left ^^^ right))

/-- The opposite of equality. -/
def ne (left right : Word) : Choice :=
  ~~~eq left right

/-- A word is below another if subtracting that one borrows. -/
def lt (left right : Word) : Choice :=
  Choice.ofBit (sub left right).carry

/-- At most: the other word is not below. -/
def le (left right : Word) : Choice :=
  ~~~lt right left

/-- Above: the other word is below. -/
def gt (left right : Word) : Choice :=
  lt right left

/-- At least: the other word is at most this one. -/
def ge (left right : Word) : Choice :=
  le right left

end Word

end ModularLadder
