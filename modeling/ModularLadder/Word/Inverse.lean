import ModularLadder.Word

/-!
# Inverses modulo the word size

An odd word has an inverse modulo `2^64`.  It is found by Newton's iteration:
an odd number is its own inverse modulo 8, and every step doubles the number
of correct low bits, so that five steps go from three bits past 64.
-/

namespace ModularLadder.Word

/-- One step of the iteration, which doubles the number of correct bits. -/
def inverseStep (odd guess : Word) : Word :=
  guess * (2 - odd * guess)

/-- The approximation reached after a number of steps. -/
def inverseAfter (odd : Word) : (steps : Nat) → Word
  | 0 => odd
  | steps + 1 => inverseStep odd (inverseAfter odd steps)

/-- The inverse of an odd word modulo `2^64`. -/
def inverse (odd : Word) : Word :=
  inverseAfter odd 5

/-- The negated inverse of an odd word modulo `2^64`. -/
def negInverse (odd : Word) : Word :=
  ~~~inverse odd + 1

end ModularLadder.Word
