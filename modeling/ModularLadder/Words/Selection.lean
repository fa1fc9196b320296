import ModularLadder.Word.Choice
import ModularLadder.Words

/-!
# Masked selection between long numbers

The choice between two numbers of equal width is made word by word with one
mask, so which of them was wanted does not show in what is touched.
-/

namespace ModularLadder.Words

/-- The first number if the choice is unset, the second one if it is set. -/
def select (unset set : Words) (choice : Choice) : Words :=
  unset.zipWith choice.select set

/-- A number, replaced by another one if the choice is set. -/
def assignIf (number replacement : Words) (choice : Choice) : Words :=
  number.zipWith choice.select replacement

/-- Two numbers, exchanged if the choice is set. -/
def swapIf (left right : Words) (choice : Choice) : Words × Words :=
  (left.zipWith choice.select right, right.zipWith choice.select left)

@[simp]
theorem length_select
    (unset set : Words)
    (choice : Choice)
    (sameWidth : set.length = unset.length) :
    (select unset set choice).length = unset.length := by
  simp [select, sameWidth]

end ModularLadder.Words
