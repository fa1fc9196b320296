import Mathlib
import ModularLadder.Proofs.ScatterTable

/-!
# Which numbers a scattered table takes

Numbers are checked in a fixed order.  There has to be an admissible number of
them, the first one must have words, and all others must be as wide as it is.
Numbers that pass are always stored, and the table gives every one of them
back.

The order shows in the failures.  A wrong number of entries is a wrong value
even if the entries are empty, and an empty first entry is missing data even
if the widths differ.
-/

namespace ModularLadder.ScatterTable

/--
A table that gives back certain numbers.  A destination that is as wide as the
wanted number is filled with it, whatever the destination has held.
-/
structure GivesBack (table : ScatterTable) (numbers : List Words) : Prop where
  count_eq : table.count = numbers.length
  gather_eq :
    ∀ index (inside : index < numbers.length) (destination : Words),
      destination.length = numbers[index].length →
        table.gather destination index = numbers[index]

/-- Some number is not as wide as the first one. -/
def Uneven (numbers : List Words) : Prop :=
  ∃ number ∈ numbers, number.length ≠ (numbers.headD []).length

/-- The admissible counts are the powers of two from two to the line length. -/
theorem mem_admissibleCounts_iff
    (count : Nat) :
    count ∈ admissibleCounts ↔
      2 ≤ count ∧ count ≤ 64 ∧ count.isPowerOfTwo := by
  constructor
  · intro admissible
    rcases exists_two_pow admissible with ⟨exponent, power, -⟩
    have atLeast : ∀ entry ∈ admissibleCounts, 2 ≤ entry := by decide
    exact ⟨atLeast count admissible, count_le admissible, exponent, power⟩
  · rintro ⟨atLeast, atMost, exponent, rfl⟩
    have exponent_le : exponent ≤ 6 :=
      (Nat.pow_le_pow_iff_right (by decide)).1 atMost
    interval_cases exponent
    · exact absurd atLeast (by decide)
    all_goals decide

section Checks

variable
  {numbers : List Words}
  (scramble : Nat → UInt16)

theorem scatter_of_not_admissible
    (refused : numbers.length ∉ admissibleCounts) :
    scatter numbers scramble = .error .value := by
  have contained : admissibleCounts.contains numbers.length = false := by
    rw [← Bool.not_eq_true, List.contains_iff_mem]
    exact refused
  simp only [scatter, contained]
  rfl

variable
  (admissible : numbers.length ∈ admissibleCounts)

include admissible

theorem scatter_of_empty
    (empty : numbers.headD [] = []) :
    scatter numbers scramble = .error .notEnoughData := by
  have contained : admissibleCounts.contains numbers.length = true :=
    List.contains_iff_mem.2 admissible
  simp only [scatter, contained, empty]
  rfl

theorem scatter_of_uneven
    (nonempty : numbers.headD [] ≠ [])
    (uneven : Uneven numbers) :
    scatter numbers scramble = .error .value := by
  have contained : admissibleCounts.contains numbers.length = true :=
    List.contains_iff_mem.2 admissible
  have wide : ((numbers.headD []).length == 0) = false := by
    simpa using nonempty
  have differing :
      (numbers.any fun number =>
        number.length != (numbers.headD []).length) = true := by
    simpa [Uneven] using uneven
  simp only [scatter, contained, wide, differing]
  rfl

/-- Admissible numbers of equal width are stored, and all are given back. -/
theorem exists_givesBack
    {width : Nat}
    (widths : ∀ number ∈ numbers, number.length = width)
    (width_pos : 0 < width) :
    ∃ table,
      scatter numbers scramble = .ok table ∧ table.GivesBack numbers := by
  refine ⟨filled numbers scramble width, ?_, rfl, ?_⟩
  · exact scatter_eq_filled numbers scramble width admissible widths width_pos
  · intro index inside destination sameWidth
    apply gather_filled numbers scramble width admissible widths
    exact sameWidth.trans (widths _ (List.getElem_mem inside))

end Checks

/--
The three ways to make a table of numbers, whatever the scramble words: a count
that is no power of two from two to 64 or a different width is a wrong value,
an empty first number is missing data, and all other numbers make a table that
gives them back.
-/
theorem scatter_outcomes
    (numbers : List Words)
    (scramble : Nat → UInt16) :
    let count := numbers.length
    let first := numbers.headD []
    let admissible := 2 ≤ count ∧ count ≤ 64 ∧ count.isPowerOfTwo
    (scatter numbers scramble = .error .value ↔
        ¬admissible ∨ first ≠ [] ∧ Uneven numbers) ∧
      (scatter numbers scramble = .error .notEnoughData ↔
        admissible ∧ first = []) ∧
      ((∃ table,
          scatter numbers scramble = .ok table ∧ table.GivesBack numbers) ↔
        admissible ∧ first ≠ [] ∧ ¬Uneven numbers) := by
  intro count first admissible
  have counts : count ∈ admissibleCounts ↔ admissible :=
    mem_admissibleCounts_iff count
  by_cases mem : count ∈ admissibleCounts
  · have holds : admissible := counts.1 mem
    by_cases empty : first = []
    · rw [scatter_of_empty scramble mem empty]
      simp [holds, empty]
    · by_cases uneven : Uneven numbers
      · rw [scatter_of_uneven scramble mem empty uneven]
        simp [holds, empty, uneven]
      · have widths : ∀ number ∈ numbers, number.length = first.length := by
          intro number inside
          by_contra differs
          exact uneven ⟨number, inside, differs⟩
        have width_pos : 0 < first.length := List.length_pos_of_ne_nil empty
        rcases exists_givesBack scramble mem widths width_pos with
          ⟨table, made, givesBack⟩
        rw [made]
        simp [holds, empty, uneven, givesBack]
  · have fails : ¬admissible := fun holds => mem (counts.2 holds)
    rw [scatter_of_not_admissible scramble mem]
    simp [fails]

/-- The count is checked before the first number. -/
example : scatter [[], [], []] (fun _ => 0) = .error .value :=
  rfl

/-- The first number is checked before the widths. -/
example : scatter [[], [1]] (fun _ => 0) = .error .notEnoughData :=
  rfl

end ModularLadder.ScatterTable
