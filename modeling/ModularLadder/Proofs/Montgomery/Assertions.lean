import Mathlib
import ModularLadder.Proofs.Montgomery.Arithmetic
import ModularLadder.Proofs.Montgomery.Quotient

/-!
# Nothing is carried out of the words

The arithmetic of a modulus relies on carries that are always clear and on
words that are always zero, and looks at none of them.  Here they are stated
where they arise.

The passes of a reduction are taken one by one.  Each begins with the words
that the passes before it have not cleared, whose value is at most that of the
modulus times one more than the weight of the words still to be cleared.  The
multiple of the modulus that the pass adds keeps this bound for the words above
the ones that it clears, and the accumulator's last word takes up what the
bound allows.
-/

namespace ModularLadder.Montgomery

namespace Reducer

/-! ## Passes of a reduction -/

/-- A pass has had room for its carries, left none, and cleared its words. -/
structure PassSettles
    (reducer : Reducer)
    (count : Nat)
    (accumulator : Words)
    (pass : Carried Words) :
    Prop where
  room : reducer.width + count ≤ accumulator.length
  noCarry : pass.carry = 0
  cleared : pass.result.take count = Words.zeros count

/--
The double passes of a reduction: how many words are done when one begins, and
what stands above them.
-/
inductive Iteration
    (reducer : Reducer)
    (accumulator : Words) :
    (done : Nat) → (upper : Words) → Prop
  | first : Iteration reducer accumulator 0 accumulator
  | next {done : Nat} {upper : Words} :
    Iteration reducer accumulator done upper →
      done + 1 < reducer.width →
        Iteration reducer accumulator (done + 2)
          ((reducer.clearPair upper).result.drop 2)

/-- Every pass over the accumulator settles, an odd last one included. -/
structure Settles (reducer : Reducer) (accumulator : Words) : Prop where
  pair (done : Nat) (upper : Words) :
    reducer.Iteration accumulator done upper →
      done + 1 < reducer.width →
        reducer.PassSettles 2 upper (reducer.clearPair upper)
  word (done : Nat) (upper : Words) :
    reducer.Iteration accumulator done upper →
      done + 1 = reducer.width →
        reducer.PassSettles 1 upper (reducer.clearWord upper)
  /-- The passes are those of the reduction, and keep what is cleared. -/
  words (done : Nat) (upper : Words) :
    reducer.Iteration accumulator done upper →
      (reducer.clearLow reducer.width accumulator).words =
        Words.zeros done ++
          (reducer.clearLow (reducer.width - done) upper).words
  carries :
    (reducer.clearLow reducer.width accumulator).carries =
      List.replicate ((reducer.width + 1) / 2) 0

/-- What holds of the words above those that are done. -/
structure Pending
    (reducer : Reducer)
    (done : Nat)
    (upper : Words) :
    Prop where
  done_le : done ≤ reducer.width
  length : done + upper.length = 2 * reducer.width + 1
  bound :
    Words.value upper <
      Words.value reducer.modulus * (2 ^ (64 * (reducer.width - done)) + 1)

/-- Words that are worth nothing are clear. -/
theorem take_eq_zeros
    {count : Nat}
    {number : Words}
    (fits : count ≤ number.length)
    (zero : Words.value (number.take count) = 0) :
    number.take count = Words.zeros count := by
  apply Words.eq_of_value_eq
  · simpa using fits
  · rw [zero, Words.value_zeros]

theorem length_carries_clearLow
    (reducer : Reducer)
    (count : Nat)
    (accumulator : Words) :
    (reducer.clearLow count accumulator).carries.length = (count + 1) / 2 := by
  fun_induction clearLow reducer count accumulator with
  | case1 accumulator => rfl
  | case2 accumulator pass => rfl
  | case3 count accumulator pass upper ih =>
    rw [List.length_cons, ih]
    omega

section

variable
  {reducer : Reducer}
  (sound : reducer.Sound)
  {accumulator upper : Words}
  {done : Nat}

include sound

/-- A double pass settles, and what is pending stays in its bound. -/
theorem Sound.pair_settles
    (pending : reducer.Pending done upper)
    (more : done + 1 < reducer.width) :
    reducer.PassSettles 2 upper (reducer.clearPair upper) ∧
      reducer.Pending (done + 2)
        ((reducer.clearPair upper).result.drop 2) := by
  have length := pending.length
  have remaining : reducer.width - done = 2 + (reducer.width - (done + 2)) := by
    omega
  have bound := pending.bound
  rw [remaining] at bound
  rcases sound.clearPair_exact _ upper (by omega) bound with
    ⟨_, noCarry, _, low, high⟩
  have passLength := reducer.length_clearPair upper
  constructor
  · exact ⟨by omega, noCarry, take_eq_zeros (by omega) low⟩
  · exact ⟨by omega, by rw [List.length_drop]; omega, high⟩

/-- A single pass over the last word settles. -/
theorem Sound.word_settles
    (pending : reducer.Pending done upper)
    (last : done + 1 = reducer.width) :
    reducer.PassSettles 1 upper (reducer.clearWord upper) := by
  have length := pending.length
  have remaining : reducer.width - done = 1 + 0 := by omega
  have bound := pending.bound
  rw [remaining] at bound
  rcases sound.clearWord_exact _ upper (by omega) bound with
    ⟨_, noCarry, _, low, _⟩
  have passLength := reducer.length_clearWord upper
  exact ⟨by omega, noCarry, take_eq_zeros (by omega) low⟩

/-- Each pass of a reduction begins in its bound. -/
theorem Sound.pending_of_iteration
    (length : accumulator.length = 2 * reducer.width + 1)
    (room :
      Words.value accumulator <
        Words.value reducer.modulus * 2 ^ (64 * reducer.width))
    (iteration : reducer.Iteration accumulator done upper) :
    reducer.Pending done upper := by
  induction iteration with
  | first =>
    refine ⟨Nat.zero_le _, by omega, ?_⟩
    rw [Nat.sub_zero, Nat.mul_add]
    omega
  | next _ more ih => exact (sound.pair_settles ih more).2

/-- The passes that are left are those of the reduction. -/
theorem Sound.words_of_iteration
    (length : accumulator.length = 2 * reducer.width + 1)
    (room :
      Words.value accumulator <
        Words.value reducer.modulus * 2 ^ (64 * reducer.width))
    (iteration : reducer.Iteration accumulator done upper) :
    (reducer.clearLow reducer.width accumulator).words =
      Words.zeros done ++
        (reducer.clearLow (reducer.width - done) upper).words := by
  induction iteration with
  | first => rfl
  | @next done upper before more ih =>
    have pending := sound.pending_of_iteration length room before
    have remaining :
        reducer.width - done = reducer.width - (done + 2) + 2 := by
      omega
    rw [ih, remaining, clearLow, (sound.pair_settles pending more).1.cleared,
      ← List.append_assoc, Words.zeros, Words.zeros, Words.zeros,
      List.replicate_append_replicate]

/-- A reduction settles wherever the accumulator is below `N * R`. -/
theorem Sound.settles
    (length : accumulator.length = 2 * reducer.width + 1)
    (room :
      Words.value accumulator <
        Words.value reducer.modulus * 2 ^ (64 * reducer.width)) :
    reducer.Settles accumulator := by
  constructor
  case pair =>
    intro done upper iteration more
    have pending := sound.pending_of_iteration length room iteration
    exact (sound.pair_settles pending more).1
  case word =>
    intro done upper iteration last
    have pending := sound.pending_of_iteration length room iteration
    exact sound.word_settles pending last
  case words =>
    intro done upper iteration
    exact sound.words_of_iteration length room iteration
  case carries =>
    have clears :=
      sound.clearLow_exact reducer.width accumulator (by omega)
        (by rw [Nat.mul_add]; omega)
    exact List.eq_replicate_iff.2
      ⟨length_carries_clearLow _ _ _, clears.carries⟩

/-- A number of double width is reduced below a clear word. -/
theorem Sound.settles_extended
    {total : Words}
    (length : total.length = 2 * reducer.width)
    (room :
      Words.value total <
        Words.value reducer.modulus * 2 ^ (64 * reducer.width)) :
    reducer.Settles (total ++ [0]) := by
  apply sound.settles
  · rw [List.length_append, length, List.length_singleton]
  · rw [Words.value_append]
    exact room

end

end Reducer

/-! ## Rows of a product and restored carries -/

theorem length_carries_productRows
    (number multiplier accumulator : Words) :
    (Words.productRows method number multiplier accumulator).carries.length =
      (multiplier.length + 1) / 2 := by
  fun_induction Words.productRows method number multiplier accumulator with
  | case1 accumulator => rfl
  | case2 last accumulator row =>
    rw [List.length_singleton, List.length_singleton]
  | case3 low high multiplier accumulator row upper ih =>
    rw [List.length_cons, ih, List.length_cons, List.length_cons]
    omega

/--
A borrow of a difference is paid back when the modulus is added: both numbers
are below the modulus, and the total has a bit above the words.
-/
theorem carry_restored
    {left right modulus : Words}
    (sameWidth : right.length = left.length)
    (modulusWidth : modulus.length = left.length)
    (rightBelow : Words.value right < Words.value modulus) :
    (Words.sub left right).carry = 0 ∨
      (Words.add (Words.sub left right).result modulus).carry = 1 := by
  have deducts := Words.sub_deducts left right sameWidth
  by_cases less : Words.value left < Words.value right
  · have paid :=
      Words.value_restored left right modulus sameWidth modulusWidth less
        rightBelow
    have borrowed := deducts.exact
    have restored :=
      Words.value_add (Words.sub left right).result modulus
        (modulusWidth.trans deducts.length_eq.symm)
    rw [deducts.length_eq] at restored
    rw [deducts.borrow_eq, if_pos less, UInt64.toNat_one] at borrowed
    have weight := Nat.two_pow_pos (64 * left.length)
    refine .inr (UInt64.toNat_inj.1 ?_)
    rcases Nat.le_one_iff_eq_zero_or_eq_one.1
        (Words.carry_add_le (Words.sub left right).result modulus) with
      none | carried
    · rw [none] at restored
      omega
    · exact carried
  · left
    rw [deducts.borrow_eq, if_neg less]

/-! ## The assertions of a context -/

namespace Context

/-- Words of the context's width that stand for a number below the modulus. -/
structure InRange (context : Context) (number : Words) : Prop where
  width : number.length = context.width
  below : Words.value number < Words.value context.modulus

/--
What the arithmetic asserts of its carries, its borrows and the words that it
clears, on any storage and any temporaries of the proper lengths.
-/
structure AssertionsHold (context : Context) : Prop where
  reduce (accumulator : Words) :
    accumulator.length = 2 * context.width + 1 →
      Words.value accumulator <
          Words.value context.modulus * 2 ^ (64 * context.width) →
        context.Settles accumulator
  /-- No row of a product carries out, and what it leaves can be reduced. -/
  multiply (left right storage : Words) :
    context.Factors left right →
      storage.length = 2 * context.width →
        let rows := Words.productRows method left right (Words.clear storage)
        rows.carries = List.replicate ((context.width + 1) / 2) 0 ∧
          context.Settles (rows.words ++ [0])
  /-- Neither the doubling nor the diagonal of a square carries out. -/
  square (number storage : Words) :
    context.Factors number number →
      storage.length = 2 * context.width →
        let stages := Words.squareStages method storage number
        stages.carries = [0, 0] ∧ context.Settles (stages.words ++ [0])
  encodeWord (word : Word) (scratch : Scratch) :
    scratch.Fits context.width →
      let cleared := Words.clear scratch.accumulator
      let low := cleared.take (context.width + 1)
      let high := cleared.drop (context.width + 1)
      let product := Words.addMul method low context.radixSquared word
      product.carry = 0 ∧ context.Settles (product.result ++ high)
  neg (number : Words) :
    context.InRange number → (Words.sub context.modulus number).carry = 0
  modulusMinusTwo :
    let difference :=
      Words.sub context.modulus (Words.setWord context.zero 2)
    context.modulusMinusTwo = difference.result ∧ difference.carry = 0
  /-- What a difference has borrowed comes back with the modulus. -/
  sub (left right : Words) :
    context.InRange left →
      context.InRange right →
        let difference := Words.sub left right
        let restored := Words.add difference.result context.modulus
        difference.carry = 0 ∨ restored.carry = 1
  subInPlace (left right : Words) :
    context.InRange left →
      context.InRange right →
        let difference := Words.subShort left right
        let restored := Words.add difference.result context.modulus
        difference.carry = 0 ∨ restored.carry = 1

/-- A number not above the modulus is taken from it without a borrow. -/
theorem borrow_modulus_sub
    {context : Context}
    {number : Words}
    (width : number.length = context.width)
    (le : Words.value number ≤ Words.value context.modulus) :
    (Words.sub context.modulus number).carry = 0 := by
  rw [(Words.sub_deducts context.modulus number width).borrow_eq,
    if_neg (Nat.not_lt.2 le)]

/-- How the exponent of inversion is computed. -/
theorem modulusMinusTwo_of_ofBytes
    {modulusBytes : Bytes}
    {context : Context}
    (made : ofBytes modulusBytes = .ok context) :
    context.modulusMinusTwo =
      (Words.sub context.modulus (Words.setWord context.zero 2)).result := by
  rw [ofBytes_eq] at made
  split_ifs at made
  rw [Except.ok.injEq] at made
  subst made
  rfl

section

variable
  {context : Context}
  (sound : context.Sound)

include sound

theorem Sound.multiply_settles
    {left right storage : Words}
    (factors : context.Factors left right)
    (length : storage.length = 2 * context.width) :
    (Words.productRows method left right (Words.clear storage)).carries =
        List.replicate ((context.width + 1) / 2) 0 ∧
      context.Settles
        ((Words.productRows method left right (Words.clear storage)).words ++
          [0]) := by
  have clearedLength : (Words.clear storage).length = 2 * context.width := by
    simpa using length
  have leftWidth := factors.leftWidth
  have rightWidth := factors.rightWidth
  rcases
      Words.productRows_exact method left right (Words.clear storage)
        (by omega) (by simp) with
    ⟨product, noCarries⟩
  rw [Words.value_clear, Nat.zero_add] at product
  constructor
  · refine List.eq_replicate_iff.2 ⟨?_, noCarries⟩
    rw [length_carries_productRows, rightWidth]
  · apply sound.reducer.settles_extended
    · simpa using length
    · rw [product]
      exact factors.room

theorem Sound.square_settles
    {number storage : Words}
    (factors : context.Factors number number)
    (length : storage.length = 2 * context.width) :
    (Words.squareStages method storage number).carries = [0, 0] ∧
      context.Settles
        ((Words.squareStages method storage number).words ++ [0]) := by
  rcases
      Words.squareStages_exact method storage number
        (by rw [length, factors.leftWidth]) with
    ⟨square, noCarries⟩
  constructor
  · exact List.eq_replicate_iff.2 ⟨rfl, noCarries⟩
  · apply sound.reducer.settles_extended
    · exact (Words.length_square method storage number).trans length
    · rw [square]
      exact factors.room

theorem Sound.encodeWord_settles
    (word : Word)
    (scratch : Scratch)
    (fits : scratch.Fits context.width) :
    let cleared := Words.clear scratch.accumulator
    let low := cleared.take (context.width + 1)
    let high := cleared.drop (context.width + 1)
    let product := Words.addMul method low context.radixSquared word
    product.carry = 0 ∧ context.Settles (product.result ++ high) := by
  intro cleared low high product
  rcases sound.loadProduct_exact word scratch fits with
    ⟨noCarry, total, length⟩
  refine ⟨noCarry, sound.reducer.settles length ?_⟩
  rw [total]
  exact sound.product_word_lt word

end

/-- In every context that has been made, all that is asserted holds. -/
theorem assertionsHold_of_ofBytes
    {modulusBytes : Bytes}
    {context : Context}
    (made : ofBytes modulusBytes = .ok context) :
    context.AssertionsHold := by
  have sound := (sound_of_ofBytes made).1
  constructor
  case reduce =>
    intro accumulator length room
    exact sound.reducer.settles length room
  case multiply =>
    intro left right storage factors length
    exact sound.multiply_settles factors length
  case square =>
    intro number storage factors length
    exact sound.square_settles factors length
  case encodeWord => exact sound.encodeWord_settles
  case neg =>
    intro number inRange
    exact borrow_modulus_sub inRange.width inRange.below.le
  case modulusMinusTwo =>
    intro difference
    have width : (Words.setWord context.zero 2).length = context.width := by
      simp
    have value : Words.value (Words.setWord context.zero 2) = 2 :=
      Words.value_setWord context.zero 2 sound.nonempty
    refine ⟨modulusMinusTwo_of_ofBytes made, borrow_modulus_sub width ?_⟩
    rw [value]
    exact sound.one_lt
  case sub =>
    intro left right leftInRange rightInRange
    exact carry_restored (rightInRange.width.trans leftInRange.width.symm)
      leftInRange.width.symm rightInRange.below
  case subInPlace =>
    intro left right leftInRange rightInRange
    have sameWidth := rightInRange.width.trans leftInRange.width.symm
    rw [Words.subShort_eq_sub _ _ sameWidth]
    exact carry_restored sameWidth leftInRange.width.symm rightInRange.below

/--
Modulo `2 ^ 128 + 1`, in three words, a double pass and the single one after it
settle on the greatest total of five words.
-/
theorem assertionsHold_of_ofBytes_threeWords :
    let ones : Word := 0xFFFFFFFFFFFFFFFF
    let modulus : Bytes := [1, 0, 0, 0, 0, 0, 0, 0, 0, 0, 0, 0, 0, 0, 0, 0, 1]
    let context := ofModulus (modulusOfBytes modulus) modulus.length
    let total : Words := [ones, ones, ones, ones, ones, 0, 0]
    let upper := (context.clearPair total).result.drop 2
    ofBytes modulus = .ok context ∧
      context.Iteration total 2 upper ∧
      context.PassSettles 2 total (context.clearPair total) ∧
      context.PassSettles 1 upper (context.clearWord upper) := by
  intro ones modulus context total upper
  have made : ofBytes modulus = .ok context := by
    rw [ofBytes_eq, if_neg (by decide), if_neg (by decide)]
  have settles : context.Settles total :=
    (assertionsHold_of_ofBytes made).reduce total (by decide +kernel)
      (by decide +kernel)
  have start : context.Iteration total 0 total := .first
  have second : context.Iteration total 2 upper := start.next (by decide)
  exact ⟨made, second, settles.pair 0 total start (by decide),
    settles.word 2 upper second (by decide)⟩

end Context

end ModularLadder.Montgomery
