import Mathlib
import ModularLadder.Proofs.BitWindow

/-!
# Readers hand out their digits one by one

A reader is called again and again.  As long as digits are to come, a call
answers with the first of them and leaves the reader with the others.  After
the last one every call answers with nothing and changes nothing.

No answer means two things in a reader: nothing is to come, or the bytes have
run out within a digit.  The second never happens.  It is excluded apart from
the answers, by what the digit that is due collects from the bytes still held,
and these are the end of the string.
-/

namespace ModularLadder.BitWindow

open Bytes (bigEndianValue)

/-- The reader after a call; a call without an answer leaves it as it was. -/
def advance (reader : BitWindow) : BitWindow :=
  match reader.next? with
  | none => reader
  | some (_, after) => after

/--
A reader of a string that has certain digits still to come.  It tells how many
they are, its next call answers with the first of them, and that call finds
all the bits it wants in bytes of the string.
-/
structure HandsOut
    (bytes : Bytes)
    (toCome : List Nat)
    (reader : BitWindow) :
    Prop where
  digitsLeft_eq : reader.digitsLeft = toCome.length
  sizeHint_eq : reader.sizeHint = (toCome.length, some toCome.length)
  answer_eq : reader.next?.map Prod.fst = toCome.head?
  remaining_suffix : reader.remaining <:+ bytes
  collects :
    toCome ≠ [] →
      ∃ collected,
        collect reader.nextSize reader.available 0 reader.remaining =
          some collected

/-- What is left after collecting bits is the end of what was there. -/
theorem collect_suffix
    {wanted available digit : Nat}
    {remaining : Bytes}
    {collected : Collected}
    (result : collect wanted available digit remaining = some collected) :
    collected.remaining <:+ remaining := by
  fun_induction collect wanted available digit remaining with
  | case1 available digit remaining =>
    cases result
    exact List.suffix_rfl
  | case2 => cases result
  | case3 wanted available digit byte rest _ _ _ _ ih =>
    exact (ih result).trans (List.suffix_cons byte rest)
  | case4 =>
    cases result
    exact List.suffix_rfl

/-- A call that answers has collected all the bits that it wants. -/
theorem exists_collected
    {reader after : BitWindow}
    {digit : Nat}
    (read : reader.next? = some (digit, after)) :
    ∃ collected,
      collect reader.nextSize reader.available 0 reader.remaining =
          some collected ∧
        after.remaining = collected.remaining := by
  rw [next?] at read
  cases left : reader.digitsLeft with
  | zero => simp [left] at read
  | succ digitsLeft =>
    simp only [left, Option.map_eq_some_iff, Prod.mk.injEq] at read
    rcases read with ⟨collected, result, -, rfl⟩
    exact ⟨collected, result, rfl⟩

theorem next?_suffix
    {reader after : BitWindow}
    {digit : Nat}
    (read : reader.next? = some (digit, after)) :
    after.remaining <:+ reader.remaining := by
  rcases exists_collected read with ⟨collected, result, remaining⟩
  rw [remaining]
  exact collect_suffix result

theorem next?_of_digitsLeft_eq_zero
    {reader : BitWindow}
    (none_left : reader.digitsLeft = 0) :
    reader.next? = none := by
  rw [next?, none_left]

theorem digits_of_digitsLeft_eq_zero
    {reader : BitWindow}
    (none_left : reader.digitsLeft = 0) :
    reader.digits = [] := by
  rw [digits, none_left, take]

/-- The digits to come are the one that is read and those that follow it. -/
theorem digits_eq_cons
    {reader after : BitWindow}
    {digit digitsLeft : Nat}
    (some_left : reader.digitsLeft = digitsLeft + 1)
    (read : reader.next? = some (digit, after))
    (after_left : after.digitsLeft = digitsLeft) :
    reader.digits = digit :: after.digits := by
  rw [digits, some_left, take, read, digits, after_left]

section Call

variable
  {reader : BitWindow}
  (proper : reader.Proper)

include proper

/-- A call answers with the first of the digits to come, if there is one. -/
theorem Proper.answer_eq_head? :
    reader.next?.map Prod.fst = reader.digits.head? := by
  cases left : reader.digitsLeft with
  | zero =>
    rw [next?_of_digitsLeft_eq_zero left, digits_of_digitsLeft_eq_zero left]
    rfl
  | succ digitsLeft =>
    rcases proper.next left with ⟨digit, after, read, -, after_left, -⟩
    rw [digits_eq_cons left read after_left, read]
    rfl

/-- The bytes that are held do not run out within the digit that is due. -/
theorem Proper.collects
    (some_to_come : reader.digits ≠ []) :
    ∃ collected,
      collect reader.nextSize reader.available 0 reader.remaining =
        some collected := by
  cases left : reader.digitsLeft with
  | zero => exact absurd (digits_of_digitsLeft_eq_zero left) some_to_come
  | succ digitsLeft =>
    rcases proper.next left with ⟨digit, after, read, -⟩
    rcases exists_collected read with ⟨collected, result, -⟩
    exact ⟨collected, result⟩

/-- A proper reader hands out the digits that it would read in one go. -/
theorem Proper.handsOut
    {bytes : Bytes}
    (suffix : reader.remaining <:+ bytes) :
    HandsOut bytes reader.digits reader := by
  have length : reader.digits.length = reader.digitsLeft :=
    proper.take_exact.1
  constructor
  case digitsLeft_eq => exact length.symm
  case sizeHint_eq => rw [sizeHint, length]
  case answer_eq => exact proper.answer_eq_head?
  case remaining_suffix => exact suffix
  case collects => exact proper.collects

/-- A call leaves a proper reader with the digits after the first one. -/
theorem Proper.advance :
    reader.advance.Proper ∧
      reader.advance.digits = reader.digits.tail ∧
      reader.advance.remaining <:+ reader.remaining := by
  cases left : reader.digitsLeft with
  | zero =>
    have unchanged : reader.advance = reader := by
      rw [BitWindow.advance, next?_of_digitsLeft_eq_zero left]
    rw [unchanged, digits_of_digitsLeft_eq_zero left]
    exact ⟨proper, rfl, List.suffix_rfl⟩
  | succ digitsLeft =>
    rcases proper.next left with ⟨digit, after, read, next, after_left, -⟩
    have advanced : reader.advance = after := by
      rw [BitWindow.advance, read]
    rw [advanced, digits_eq_cons left read after_left]
    exact ⟨next, rfl, next?_suffix read⟩

/-- Calls leave a proper reader with the digits that have not been read. -/
theorem Proper.iterate_advance
    (count : Nat) :
    (BitWindow.advance^[count] reader).Proper ∧
      (BitWindow.advance^[count] reader).digits = reader.digits.drop count ∧
      (BitWindow.advance^[count] reader).remaining <:+ reader.remaining := by
  induction count with
  | zero => exact ⟨proper, rfl, List.suffix_rfl⟩
  | succ count ih =>
    rcases ih with ⟨before, toCome, held⟩
    rcases before.advance with ⟨after, tail, suffix⟩
    rw [Function.iterate_succ_apply']
    refine ⟨after, ?_, suffix.trans held⟩
    rw [tail, toCome, List.tail_drop]

end Call

/-- The first digit of a string has the bits that do not fill a digit. -/
theorem first_digit_lt
    (size : Nat)
    (bytes : Bytes)
    (size_pos : 0 < size)
    (short : 8 * bytes.length % size ≠ 0)
    {first : Nat}
    (mem : first ∈ (ofBytes size bytes).digits.head?) :
    first < 2 ^ (8 * bytes.length % size) := by
  have proper := proper_ofBytes size bytes size_pos
  have firstSize :
      (ofBytes size bytes).nextSize = 8 * bytes.length % size :=
    if_neg short
  cases left : (ofBytes size bytes).digitsLeft with
  | zero =>
    rw [digits_of_digitsLeft_eq_zero left] at mem
    cases mem
  | succ digitsLeft =>
    rcases proper.next left with
      ⟨digit, after, read, -, after_left, -, -, bound, -⟩
    rw [digits_eq_cons left read after_left] at mem
    cases mem
    rwa [firstSize] at bound

/--
The digits of a string are as many as its bits fill, each of them is below the
radix, the first one has only the bits that are left over, and together they
write the number of the string.  A reader hands them out one by one, whatever
the number of calls.
-/
theorem digits_handed_out
    (size : Nat)
    (bytes : Bytes)
    (size_pos : 0 < size) :
    let reader := ofBytes size bytes
    let digits := reader.digits
    digits.length = 8 * bytes.length ⌈/⌉ size ∧
      (∀ digit ∈ digits, digit < 2 ^ size) ∧
      (8 * bytes.length % size ≠ 0 →
        ∀ first ∈ digits.head?, first < 2 ^ (8 * bytes.length % size)) ∧
      positional size digits = bigEndianValue bytes ∧
      ∀ count,
        HandsOut bytes (digits.drop count) (advance^[count] reader) := by
  intro reader digits
  have proper : reader.Proper := proper_ofBytes size bytes size_pos
  rcases digits_ofBytes size bytes size_pos with ⟨bounds, value⟩
  refine ⟨?_, bounds, ?_, value, ?_⟩
  · rw [Nat.ceilDiv_eq_add_pred_div]
    exact proper.take_exact.1
  · intro short first mem
    exact first_digit_lt size bytes size_pos short mem
  · intro count
    rcases proper.iterate_advance count with ⟨after, toCome, suffix⟩
    have handsOut := after.handsOut suffix
    rw [toCome] at handsOut
    exact handsOut

/--
Digits of three bits cross the border of two bytes, and the first one is a
single bit.  The seventh call and all later ones have no answer.
-/
theorem digits_handed_out_three_bits :
    let reader := ofBytes 3 [0xA5, 0x5A]
    reader.digits = [1, 2, 2, 5, 3, 2] ∧
      positional 3 reader.digits = 0xA55A ∧
      (advance^[4] reader).next?.map Prod.fst = some 3 ∧
      (advance^[4] reader).sizeHint = (2, some 2) ∧
      ∀ further, (advance^[6 + further] reader).next?.map Prod.fst = none := by
  intro reader
  rcases digits_handed_out 3 [0xA5, 0x5A] (by decide) with
    ⟨length, -, -, value, handed⟩
  have digits : reader.digits = [1, 2, 2, 5, 3, 2] := by decide +kernel
  have fourth := handed 4
  rw [digits] at fourth
  refine ⟨digits, value, fourth.answer_eq, fourth.sizeHint_eq, ?_⟩
  intro further
  have exhausted :
      reader.digits.drop (6 + further) = [] := by
    rw [digits]
    exact List.drop_of_length_le (Nat.le_add_right 6 further)
  have last := (handed (6 + further)).answer_eq
  rwa [exhausted] at last

end ModularLadder.BitWindow
