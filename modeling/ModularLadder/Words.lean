import ModularLadder.Failure
import ModularLadder.Word

/-!
# Long numbers as words

A long nonnegative number is a list of words, least significant first, of a
length that is fixed by its use.  `value` is the number that a list stands
for; every operation on lists is meant through it.

Operations that fill existing storage take it as an argument.  Its length
decides the width of the result and its former content never shows.
-/

namespace ModularLadder

/-- A long number's words, least significant first. -/
abbrev Words := List Word

namespace Words

/-- The number that a list of words stands for. -/
def value : Words → Nat
  | [] => 0
  | word :: rest => word.toNat + (1 <<< 64) * value rest

/-- A number of the given width with every word zero. -/
def zeros (width : Nat) : Words :=
  List.replicate width 0

/-- Storage with every word cleared. -/
def clear (storage : Words) : Words :=
  storage.map fun _ => 0

/-- Storage whose lowest word is set and whose other words are zero. -/
def setWord (storage : Words) (word : Word) : Words :=
  match storage with
  | [] => []
  | _ :: rest => word :: clear rest

/-- The number of words that hold a number of the given length in bytes. -/
def widthOfBytes (length : Nat) : Nat :=
  (length + 7) / 8

/-- The largest number of bytes that one piece of storage may have. -/
def storageLimit : Nat :=
  (1 <<< 63) - 1

/-- Fresh storage of the given width, unless that exceeds the limit. -/
def alloc (width : Nat) : Except Failure Words :=
  if 8 * width ≤ storageLimit then
    .ok (zeros width)
  else
    .error .memory

@[simp]
theorem length_zeros
    (width : Nat) :
    (zeros width).length = width := by
  simp [zeros]

@[simp]
theorem length_clear
    (storage : Words) :
    (clear storage).length = storage.length := by
  simp [clear]

@[simp]
theorem length_setWord
    (storage : Words)
    (word : Word) :
    (setWord storage word).length = storage.length := by
  cases storage <;> simp [setWord]

end Words

end ModularLadder
