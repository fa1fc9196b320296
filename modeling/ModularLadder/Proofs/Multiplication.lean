import Mathlib
import ModularLadder.Proofs.Product

/-!
# Products and squares of long numbers

The rows of a product and the passes of a square run on storage that is wide
enough for all that is added to it.  The invariant of the rows is that what
stands above the words that are done stays below the radix to the width of the
first factor.  Nothing is then carried out of any row, and the storage holds
the exact product at the end.

A square is twice the sum of its mixed products and the sum of its diagonal.
Each of the passes adds its own part exactly and carries nothing out.
-/

namespace ModularLadder.Words

open Word (ProductMethod)

/-- Lower words and the words that follow them, by their weight. -/
theorem value_take_add_drop
    (count : Nat)
    (number : Words)
    (fits : count ≤ number.length) :
    value (number.take count) + 2 ^ (64 * count) * value (number.drop count) =
      value number := by
  have parts := value_append (number.take count) (number.drop count)
  rw [List.take_append_drop, List.length_take, Nat.min_eq_left fits] at parts
  exact parts.symm

/-- Where a total fits the words, nothing has been carried out of them. -/
theorem carry_eq_zero_of_lt
    {result weight total : Nat}
    {carry : Word}
    (exact : result + weight * carry.toNat = total)
    (bound : total < weight) :
    carry = 0 ∧ result = total := by
  have none : carry.toNat = 0 := by
    by_contra some
    have one : weight * 1 ≤ weight * carry.toNat :=
      Nat.mul_le_mul_left weight (Nat.one_le_iff_ne_zero.2 some)
    omega
  refine ⟨UInt64.toNat_inj.1 none, ?_⟩
  rw [none] at exact
  simpa using exact

/-- A multiple of a number below a weight leaves room for one such number. -/
theorem add_mul_lt_mul
    {addend number factor weight limit : Nat}
    (addendBound : addend < weight)
    (numberBound : number < weight)
    (factorBound : factor < limit) :
    addend + number * factor < weight * limit := by
  have product : number * factor ≤ (weight - 1) * (limit - 1) :=
    Nat.mul_le_mul (by omega) (by omega)
  have expanded :
      (weight - 1) * (limit - 1) + (weight - 1) + limit = weight * limit := by
    obtain ⟨w, rfl⟩ : ∃ w, weight = w + 1 := ⟨weight - 1, by omega⟩
    obtain ⟨l, rfl⟩ : ∃ l, limit = l + 1 := ⟨limit - 1, by omega⟩
    simp only [Nat.add_sub_cancel]
    ring
  omega

theorem pow_weight_add
    (width more : Nat) :
    2 ^ (64 * (width + more)) = 2 ^ (64 * width) * 2 ^ (64 * more) := by
  rw [Nat.mul_add, Nat.pow_add]

theorem weight_le_weight
    {width wider : Nat}
    (fits : width ≤ wider) :
    2 ^ (64 * width) ≤ 2 ^ (64 * wider) :=
  Nat.pow_le_pow_right (by decide) (Nat.mul_le_mul_left 64 fits)

/-! ## Rows of a product -/

/--
A row that adds a multiple of a number to an accumulator below the number's
weight carries nothing out, and what stands above the row's lowest words is
below that weight again.
-/
theorem row_exact
    {number accumulator : Words}
    {row : Carried Words}
    {count factor : Nat}
    (length : row.result.length = accumulator.length)
    (exact :
      value row.result + 2 ^ (64 * accumulator.length) * row.carry.toNat =
        value accumulator + value number * factor)
    (factorBound : factor < 2 ^ (64 * count))
    (fits : number.length + count ≤ accumulator.length)
    (room : value accumulator < 2 ^ (64 * number.length)) :
    row.carry = 0 ∧
      value row.result = value accumulator + value number * factor ∧
      value (row.result.drop count) < 2 ^ (64 * number.length) := by
  have total := add_mul_lt_mul room (value_lt number) factorBound
  have wide := weight_le_weight fits
  rw [pow_weight_add] at wide
  rcases carry_eq_zero_of_lt exact (lt_of_lt_of_le total wide) with
    ⟨noCarry, result⟩
  refine ⟨noCarry, result, ?_⟩
  have parts := value_take_add_drop count row.result (by omega)
  apply Nat.lt_of_mul_lt_mul_left (a := 2 ^ (64 * count))
  rw [Nat.mul_comm _ (2 ^ (64 * number.length))]
  omega

/--
The rows of a product add it exactly and carry nothing out.  Each row is done
with the two lowest words, and the later rows add to those above.
-/
theorem productRows_exact
    (method : ProductMethod)
    (number multiplier accumulator : Words)
    (fits : number.length + multiplier.length ≤ accumulator.length)
    (room : value accumulator < 2 ^ (64 * number.length)) :
    value (productRows method number multiplier accumulator).words =
        value accumulator + value number * value multiplier ∧
      ∀ carry ∈ (productRows method number multiplier accumulator).carries,
        carry = 0 := by
  fun_induction productRows method number multiplier accumulator with
  | case1 accumulator => simp [value]
  | case2 last accumulator row =>
    simp only [List.length_singleton] at fits
    have factorBound : last.toNat < 2 ^ (64 * 1) := last.toNat_lt
    rcases
        row_exact (length_addMul method accumulator number last)
          (value_addMul method accumulator number last (by omega))
          factorBound fits room with
      ⟨noCarry, result, -⟩
    constructor
    · simpa [value] using result
    · simpa using noCarry
  | case3 low high multiplier accumulator row upper ih =>
    simp only [List.length_cons] at fits
    have factorBound : low.toNat + 2 ^ 64 * high.toNat < 2 ^ (64 * 2) := by
      have lowBound := low.toNat_lt
      have highBound := high.toNat_lt
      omega
    have rowLength : row.result.length = accumulator.length :=
      length_addMulPair method accumulator number low high
    rcases
        row_exact rowLength
          (value_addMulPair method accumulator number low high (by omega))
          factorBound (by omega) room with
      ⟨noCarry, result, upperRoom⟩
    rcases ih (by rw [List.length_drop]; omega) upperRoom with
      ⟨upperValue, upperCarries⟩
    have parts := value_take_add_drop 2 row.result (by omega)
    constructor
    · rw [value_append, List.length_take,
        Nat.min_eq_left (by omega : 2 ≤ row.result.length), upperValue,
        Nat.mul_add, ← Nat.add_assoc, parts, result, value_cons, value_cons]
      ring
    · intro carry member
      rcases List.mem_cons.1 member with first | later
      · rw [first]
        exact noCarry
      · exact upperCarries carry later

/-- A product in storage of the joint width is exact. -/
theorem value_product
    (method : ProductMethod)
    (storage left right : Words)
    (fits : left.length + right.length ≤ storage.length) :
    value (product method storage left right) = value left * value right := by
  have rows :=
    productRows_exact method left right (clear storage)
      (by simpa using fits) (by simp)
  simp [product, rows.1]

/-! ## Passes of a square -/

/-- The sum of the products of all pairs of different words. -/
def mixedSum : (number : Words) → Nat
  | [] => 0
  | word :: rest =>
    2 ^ 64 * (word.toNat * value rest) + 2 ^ 128 * mixedSum rest

/-- The sum of the squares of all words. -/
def diagonalSum : (number : Words) → Nat
  | [] => 0
  | word :: rest => word.toNat * word.toNat + 2 ^ 128 * diagonalSum rest

/-- A square consists of its mixed products, taken twice, and its diagonal. -/
theorem mixedSum_add_diagonalSum
    (number : Words) :
    2 * mixedSum number + diagonalSum number = value number * value number := by
  induction number with
  | nil => rfl
  | cons word rest ih =>
    have square :
        value (word :: rest) * value (word :: rest) =
          2 * (2 ^ 64 * (word.toNat * value rest)) +
            word.toNat * word.toNat +
              2 ^ 128 * (value rest * value rest) := by
      rw [value_cons]
      ring
    rw [square, ← ih, mixedSum, diagonalSum]
    ring

/-- A row of mixed products is exact if the place after it is still clear. -/
theorem value_mixedRow
    (method : ProductMethod)
    (factor carry : Word)
    (rest accumulator : Words)
    (fits : rest.length < accumulator.length)
    (room : value accumulator < 2 ^ (64 * rest.length)) :
    value (mixedRow method factor carry rest accumulator) =
      value accumulator + factor.toNat * value rest + carry.toNat := by
  induction rest generalizing carry accumulator with
  | nil =>
    cases accumulator with
    | nil => simp at fits
    | cons lowest accumulator =>
      rw [List.length_nil, Nat.mul_zero, Nat.pow_zero, value_cons] at room
      simp only [mixedRow, value_cons, value, Nat.mul_zero]
      omega
  | cons word rest ih =>
    cases accumulator with
    | nil => simp at fits
    | cons lowest accumulator =>
      have sum := Word.value_mulAdd method lowest factor word carry
      rw [List.length_cons, pow_weight_add, value_cons] at room
      have upperRoom : value accumulator < 2 ^ (64 * rest.length) := by
        omega
      have upper :=
        ih (Word.mulAdd method lowest factor word carry).high accumulator
          (by simpa using fits) upperRoom
      rw [DoubleWord.value_eq] at sum
      simp only [mixedRow, value_cons]
      rw [Nat.mul_add, Nat.mul_left_comm factor.toNat]
      omega

/-- All mixed products are added exactly to sufficiently clear storage. -/
theorem value_mixedProducts
    (method : ProductMethod)
    (number accumulator : Words)
    (fits : 2 * number.length ≤ accumulator.length)
    (room : value accumulator < 2 ^ (64 * number.length)) :
    value (mixedProducts method number accumulator) =
      value accumulator + mixedSum number := by
  induction number generalizing accumulator with
  | nil => simp [mixedProducts, mixedSum]
  | cons word rest ih =>
    cases accumulator with
    | nil => simp at fits
    | cons square accumulator =>
      simp only [List.length_cons] at fits
      rw [List.length_cons, pow_weight_add, value_cons] at room
      have restRoom : value accumulator < 2 ^ (64 * rest.length) := by
        omega
      have rowValue :=
        value_mixedRow method word 0 rest accumulator (by omega) restRoom
      have rowLength := length_mixedRow method word 0 rest accumulator
      have total :=
        add_mul_lt_mul restRoom (value_lt rest) word.toNat_lt
      have parts :=
        value_take_add_drop 1 (mixedRow method word 0 rest accumulator)
          (by omega)
      rw [Nat.mul_comm (value rest)] at total
      simp only [UInt64.toNat_zero, Nat.add_zero] at rowValue
      have upperRoom :
          value ((mixedRow method word 0 rest accumulator).drop 1) <
            2 ^ (64 * rest.length) := by
        apply Nat.lt_of_mul_lt_mul_left (a := 2 ^ 64)
        rw [Nat.mul_comm _ (2 ^ (64 * rest.length))]
        omega
      have upper :=
        ih ((mixedRow method word 0 rest accumulator).drop 1)
          (by rw [List.length_drop]; omega) upperRoom
      rw [mixedProducts, value_cons, value_append, List.length_take,
        Nat.min_eq_left (by omega :
          1 ≤ (mixedRow method word 0 rest accumulator).length),
        upper, mixedSum, value_cons]
      omega

/-- The diagonal is added exactly, two words for the square of each word. -/
theorem value_addSquaresFrom
    (method : ProductMethod)
    (carry : Word)
    (number accumulator : Words)
    (carryBound : carry.toNat ≤ 1)
    (fits : 2 * number.length = accumulator.length) :
    value (addSquaresFrom method carry number accumulator).result +
        2 ^ (64 * accumulator.length) *
          (addSquaresFrom method carry number accumulator).carry.toNat =
      value accumulator + diagonalSum number + carry.toNat := by
  fun_induction addSquaresFrom method carry number accumulator with
  | case1 carry word rest low high accumulator square lowSum highSum upper
      ih =>
    simp only [List.length_cons] at fits
    have squareValue : square.value = word.toNat * word.toNat :=
      Word.value_product method word word
    have lowExact :
        lowSum.result.toNat + 2 ^ 64 * lowSum.carry.toNat =
          low.toNat + square.low.toNat + carry.toNat :=
      Word.toNat_addWithCarry low square.low carry carryBound
    have lowCarry : lowSum.carry.toNat ≤ 1 :=
      Word.carry_addWithCarry_le low square.low carry carryBound
    have highExact :
        highSum.result.toNat + 2 ^ 64 * highSum.carry.toNat =
          high.toNat + square.high.toNat + lowSum.carry.toNat :=
      Word.toNat_addWithCarry high square.high lowSum.carry lowCarry
    have highCarry : highSum.carry.toNat ≤ 1 :=
      Word.carry_addWithCarry_le high square.high lowSum.carry lowCarry
    have upperExact :
        value upper.result +
            2 ^ (64 * accumulator.length) * upper.carry.toNat =
          value accumulator + diagonalSum rest + highSum.carry.toNat :=
      ih highCarry (by omega)
    rw [DoubleWord.value_eq] at squareValue
    simp only [value_cons, List.length_cons, weight_succ, diagonalSum]
    omega
  | case2 number carry accumulator noMore =>
    cases number with
    | nil =>
      have empty : accumulator = [] :=
        List.eq_nil_of_length_eq_zero (by simpa using fits.symm)
      simp [empty, value, diagonalSum]
    | cons word rest =>
      cases accumulator with
      | nil => simp at fits
      | cons low upper =>
        cases upper with
        | nil =>
          rw [List.length_cons, List.length_cons, List.length_nil] at fits
          omega
        | cons high upper =>
          exact (noMore word rest low high upper rfl rfl).elim

/-- The passes of a square are exact and carry nothing out. -/
theorem squareStages_exact
    (method : ProductMethod)
    (storage number : Words)
    (fits : storage.length = 2 * number.length) :
    value (squareStages method storage number).words =
        value number * value number ∧
      ∀ carry ∈ (squareStages method storage number).carries, carry = 0 := by
  have mixed :=
    value_mixedProducts method number (clear storage)
      (by simpa using fits.ge) (by simp)
  have mixedLength :
      (mixedProducts method number (clear storage)).length =
        storage.length := by
    simp
  rw [value_clear, Nat.zero_add] at mixed
  have parts := mixedSum_add_diagonalSum number
  have numberBound := value_lt number
  have squareBound :
      value number * value number < 2 ^ (64 * storage.length) := by
    have product := Nat.mul_lt_mul'' numberBound numberBound
    rwa [← pow_weight_add, ← Nat.two_mul, ← fits] at product
  have doubled := value_double (mixedProducts method number (clear storage))
  rw [mixed, mixedLength] at doubled
  rcases carry_eq_zero_of_lt doubled (by omega) with
    ⟨noDoubleCarry, doubleValue⟩
  have doubleLength :
      (double (mixedProducts method number (clear storage))).result.length =
        storage.length := by
    simp
  have complete :=
    value_addSquaresFrom method 0 number
      (double (mixedProducts method number (clear storage))).result
      (by decide) (by omega)
  rw [doubleValue, doubleLength, parts, UInt64.toNat_zero, Nat.add_zero]
    at complete
  rcases carry_eq_zero_of_lt complete squareBound with ⟨noCarry, result⟩
  refine ⟨result, ?_⟩
  intro carry member
  rcases List.mem_pair.1 member with first | second
  · rw [first]
    exact noDoubleCarry
  · rw [second]
    exact noCarry

/-- A square in storage of twice the width is exact. -/
theorem value_square
    (method : ProductMethod)
    (storage number : Words)
    (fits : storage.length = 2 * number.length) :
    value (square method storage number) = value number * value number :=
  (squareStages_exact method storage number fits).1

end ModularLadder.Words
