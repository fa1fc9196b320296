import ModularLadder.Word.Choice
import ModularLadder.Words

/-!
# Comparison of long numbers

Numbers of equal width are compared without stopping early.  Equality gathers
the differing bits of all words.  The order is decided by the highest word in
which the numbers differ: the words are scanned from the most significant one
down, under a mask that stays set while no difference has been met.
-/

namespace ModularLadder.Words

/-- Whether two numbers of equal width are the same. -/
def eq (left right : Words) : Choice :=
  let differences := (left.zipWith (· ^^^ ·) right).foldl (· ||| ·) 0
  Choice.ofBit (Word.isZero differences)

/-- Whether two numbers of equal width differ. -/
def ne (left right : Words) : Choice :=
  ~~~eq left right

/-- What is known of two numbers once their higher words have been scanned. -/
structure Scan where
  /-- The first number is greater. -/
  greater : Choice
  /-- The first number is less. -/
  less : Choice
  /-- No difference has been met yet. -/
  undecided : Choice

/-- Before the first word nothing is decided. -/
def Scan.start : Scan :=
  { greater := Choice.no, less := Choice.no, undecided := Choice.yes }

/-- The next lower pair of words decides if no higher one did. -/
def Scan.next (words : Word × Word) (scan : Scan) : Scan :=
  { greater :=
      scan.greater ||| (scan.undecided &&& Word.gt words.1 words.2)
    less :=
      scan.less ||| (scan.undecided &&& Word.lt words.1 words.2)
    undecided := scan.undecided &&& Word.eq words.1 words.2 }

/-- Scans two numbers of equal width from the most significant word down. -/
def scan (left right : Words) : Scan :=
  (left.zip right).foldr Scan.next Scan.start

/-- Whether the first number is at least the second one. -/
def ge (left right : Words) : Choice :=
  ~~~(scan left right).less

/-- Whether the first number is greater. -/
def gt (left right : Words) : Choice :=
  (scan left right).greater

/-- Whether the first number is less. -/
def lt (left right : Words) : Choice :=
  (scan left right).less

/-- Whether a number is zero. -/
def isZero (number : Words) : Choice :=
  Choice.ofBit (Word.isZero (number.foldl (· ||| ·) 0))

/--
Whether a number is one: its lowest word, with the lowest bit flipped, and all
other words are zero.  A number without words passes.
-/
def isOne (number : Words) : Choice :=
  match number with
  | [] => Choice.ofBit (Word.isZero 0)
  | lowest :: rest =>
    Choice.ofBit (Word.isZero (rest.foldl (· ||| ·) (lowest ^^^ 1)))

end ModularLadder.Words
