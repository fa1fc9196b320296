import Mathlib
import ModularLadder.Proofs.Choice
import ModularLadder.Words.Comparison

/-!
# Exact comparison of long numbers

A comparison of two numbers of equal width is the choice of the comparison of
the numbers that they stand for.  Equality rests on the fact that a number of
a given width has one list of words only.  The order rests on the scan from
the most significant word down, which knows at each stage how the parts that
it has seen compare.

Beneath all of this are the bit formulas of single words: the test for zero
and the borrow of a difference.
-/

namespace ModularLadder.Words

/-- A number has one list of words of a given width only. -/
theorem eq_of_value_eq
    (left right : Words)
    (sameWidth : left.length = right.length)
    (sameValue : value left = value right) :
    left = right := by
  induction left generalizing right with
  | nil =>
    exact (List.eq_nil_of_length_eq_zero sameWidth.symm).symm
  | cons leftWord left ih =>
    cases right with
    | nil => simp at sameWidth
    | cons rightWord right =>
      have leftBound := leftWord.toNat_lt
      have rightBound := rightWord.toNat_lt
      rw [value_cons, value_cons] at sameValue
      have lowest : leftWord = rightWord := by
        apply UInt64.toNat_inj.1
        omega
      have upper : left = right := by
        apply ih right
        · simpa using sameWidth
        · omega
      rw [lowest, upper]

theorem value_inj
    {left right : Words}
    (sameWidth : left.length = right.length) :
    value left = value right ↔ left = right := by
  constructor
  · exact eq_of_value_eq left right sameWidth
  · exact congrArg value

/-- The gathered bits of words are zero exactly if all words are. -/
theorem foldl_or_eq_zero_iff
    (start : Word)
    (words : Words) :
    words.foldl (· ||| ·) start = 0 ↔ start = 0 ∧ ∀ word ∈ words, word = 0 := by
  induction words generalizing start with
  | nil => simp
  | cons word words ih =>
    rw [List.foldl_cons, ih, UInt64.or_eq_zero_iff, List.forall_mem_cons,
      and_assoc]

/-- Two lists of words have no differing bits exactly if they are equal. -/
theorem forall_mem_zipWith_xor_iff
    (left right : Words)
    (sameWidth : left.length = right.length) :
    (∀ word ∈ left.zipWith (· ^^^ ·) right, word = 0) ↔ left = right := by
  induction left generalizing right with
  | nil =>
    have empty := List.eq_nil_of_length_eq_zero sameWidth.symm
    simp [empty]
  | cons leftWord left ih =>
    cases right with
    | nil => simp at sameWidth
    | cons rightWord right =>
      rw [List.zipWith_cons_cons, List.forall_mem_cons,
        ih right (by simpa using sameWidth), UInt64.xor_eq_zero_iff,
        List.cons.injEq]

theorem eq_eq
    (left right : Words)
    (sameWidth : left.length = right.length) :
    eq left right = Choice.ofBool (decide (left = right)) := by
  rw [eq, Word.ofBit_isZero]
  congr 1
  apply decide_eq_decide.2
  rw [foldl_or_eq_zero_iff, forall_mem_zipWith_xor_iff left right sameWidth]
  simp

/-- A number is zero exactly if all its words are. -/
theorem value_eq_zero_iff
    (number : Words) :
    value number = 0 ↔ ∀ word ∈ number, word = 0 := by
  induction number with
  | nil => simp [value]
  | cons word rest ih =>
    rw [List.forall_mem_cons, ← ih, value_cons, ← UInt64.toNat_inj]
    show _ ↔ word.toNat = 0 ∧ _
    omega

@[simp]
theorem isZero_eq
    (number : Words) :
    isZero number = Choice.ofBool (decide (value number = 0)) := by
  rw [isZero, Word.ofBit_isZero]
  congr 1
  apply decide_eq_decide.2
  rw [foldl_or_eq_zero_iff, value_eq_zero_iff]
  simp

theorem isOne_eq
    (number : Words)
    (nonempty : number ≠ []) :
    isOne number = Choice.ofBool (decide (value number = 1)) := by
  cases number with
  | nil => exact absurd rfl nonempty
  | cons lowest rest =>
    rw [isOne, Word.ofBit_isZero]
    congr 1
    apply decide_eq_decide.2
    have bound := lowest.toNat_lt
    rw [foldl_or_eq_zero_iff, ← value_eq_zero_iff, UInt64.xor_eq_zero_iff,
      value_cons, ← UInt64.toNat_inj]
    show lowest.toNat = 1 ∧ _ ↔ _
    omega

/--
The scan knows how the numbers that it has seen compare: a word decides only
where the numbers above it agree.
-/
theorem scan_eq
    (left right : Words)
    (sameWidth : left.length = right.length) :
    scan left right =
      { greater := Choice.ofBool (decide (value right < value left))
        less := Choice.ofBool (decide (value left < value right))
        undecided := Choice.ofBool (decide (value left = value right)) } := by
  induction left generalizing right with
  | nil =>
    have empty := List.eq_nil_of_length_eq_zero sameWidth.symm
    rw [empty, scan, List.zip_nil_left, List.foldr_nil, Scan.start,
      Choice.no_eq, Choice.yes_eq]
    simp [value]
  | cons leftWord left ih =>
    cases right with
    | nil => simp at sameWidth
    | cons rightWord right =>
      have upper := ih right (by simpa using sameWidth)
      have leftBound := leftWord.toNat_lt
      have rightBound := rightWord.toNat_lt
      rw [scan] at upper
      rw [scan, List.zip_cons_cons, List.foldr_cons, upper]
      simp only [Scan.next, Word.gt_eq, Word.lt_eq, Word.eq_eq,
        Choice.and_ofBool, Choice.or_ofBool, value_cons, Scan.mk.injEq,
        ← UInt64.toNat_inj, ← Bool.decide_and, ← Bool.decide_or]
      refine ⟨?_, ?_, ?_⟩
      · congr 1
        apply decide_eq_decide.2
        omega
      · congr 1
        apply decide_eq_decide.2
        omega
      · congr 1
        apply decide_eq_decide.2
        omega

theorem lt_eq
    (left right : Words)
    (sameWidth : left.length = right.length) :
    lt left right = Choice.ofBool (decide (value left < value right)) := by
  rw [lt, scan_eq left right sameWidth]

theorem ge_eq
    (left right : Words)
    (sameWidth : left.length = right.length) :
    ge left right = Choice.ofBool (decide (value right ≤ value left)) := by
  rw [ge, scan_eq left right sameWidth, Choice.not_ofBool]
  congr 1
  rw [← decide_not]
  exact decide_eq_decide.2 Nat.not_lt

theorem gt_eq
    (left right : Words)
    (sameWidth : left.length = right.length) :
    gt left right = Choice.ofBool (decide (value right < value left)) := by
  rw [gt, scan_eq left right sameWidth]

theorem eq_eq_value
    (left right : Words)
    (sameWidth : left.length = right.length) :
    eq left right = Choice.ofBool (decide (value left = value right)) := by
  rw [eq_eq left right sameWidth]
  congr 1
  exact decide_eq_decide.2 (value_inj sameWidth).symm

theorem ne_eq_value
    (left right : Words)
    (sameWidth : left.length = right.length) :
    ne left right = Choice.ofBool (decide (value left ≠ value right)) := by
  rw [ne, eq_eq_value left right sameWidth, Choice.not_ofBool, decide_not]

/--
The comparisons of two numbers of equal width, and those of one number with
zero and with one, are the choices of the comparisons of what the words stand
for.
-/
theorem comparisons_exact :
    (∀ left right : Words,
        left.length = right.length →
          eq left right = Choice.ofBool (decide (value left = value right)) ∧
            ne left right =
              Choice.ofBool (decide (value left ≠ value right)) ∧
            ge left right =
              Choice.ofBool (decide (value left ≥ value right)) ∧
            gt left right =
              Choice.ofBool (decide (value left > value right)) ∧
            lt left right =
              Choice.ofBool (decide (value left < value right))) ∧
      (∀ number : Words,
        isZero number = Choice.ofBool (decide (value number = 0))) ∧
      ∀ number : Words,
        number ≠ [] →
          isOne number = Choice.ofBool (decide (value number = 1)) := by
  refine ⟨?_, isZero_eq, isOne_eq⟩
  intro left right sameWidth
  exact
    ⟨eq_eq_value left right sameWidth, ne_eq_value left right sameWidth,
      ge_eq left right sameWidth, gt_eq left right sameWidth,
      lt_eq left right sameWidth⟩

/-- The highest words decide, although all lower ones compare the other way. -/
theorem comparisons_exact_highest :
    let ones : Word := 0xFFFFFFFFFFFFFFFF
    let left : Words := [0, 0, 2]
    let right : Words := [ones, ones, 1]
    gt left right = Choice.ofBool true ∧
      lt left right = Choice.ofBool false ∧
      isOne [1, 0, 0] = Choice.ofBool true ∧
      isOne [1, 0, 1] = Choice.ofBool false := by
  intro ones left right
  rcases comparisons_exact with ⟨ordered, -, one⟩
  rcases ordered left right rfl with ⟨-, -, -, greater, less⟩
  rw [greater, less, one [1, 0, 0] (by decide), one [1, 0, 1] (by decide)]
  refine ⟨?_, ?_, ?_, ?_⟩ <;>
    exact congrArg Choice.ofBool (by decide +kernel)

end ModularLadder.Words
