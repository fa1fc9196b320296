import Mathlib
import ModularLadder.Proofs.Montgomery.Residue

/-!
# The arithmetic of Montgomery forms is that of residues

Sums, differences and negations of forms below the modulus are forms below the
modulus, and represent the sums, differences and negations of what their
operands represent.  For a sum this is the correction of a total below twice
the modulus.  For a difference it is the observation that a borrow is paid
back by the carry of the modulus.

A single word enters Montgomery form on three paths that agree.  Zero and one
are known forms; any other word multiplies the square of the radix into a
total that leaves room for reduction.
-/

namespace ModularLadder.Montgomery.Context

/--
A difference that has borrowed stands above the number meant by the radix.
Adding the modulus carries the radix out and leaves that number plus the
modulus.
-/
theorem correctDifference_exact
    (context : Context)
    (left right : Words)
    (leftWidth : left.length = context.width)
    (rightWidth : right.length = context.width)
    (leftBelow : Words.value left < Words.value context.modulus)
    (rightBelow : Words.value right < Words.value context.modulus) :
    let difference := Words.sub left right
    let restored := Words.add difference.result context.modulus
    let corrected :=
      Words.assignIf difference.result restored.result
        (Choice.ofBit difference.carry)
    Words.value corrected < Words.value context.modulus ∧
      corrected.length = context.width ∧
      restored.result.length = context.width ∧
      Words.value corrected + Words.value right ≡ Words.value left
        [MOD Words.value context.modulus] := by
  intro difference restored corrected
  have sameWidth : right.length = left.length :=
    rightWidth.trans leftWidth.symm
  have modulusWidth : context.modulus.length = left.length := leftWidth.symm
  have differenceLength : difference.result.length = context.width := by
    simp [difference, sameWidth, leftWidth]
  have modulusLength : context.modulus.length = difference.result.length :=
    differenceLength.symm
  have restoredLength : restored.result.length = context.width := by
    simp [restored, modulusLength, differenceLength]
  have borrow : Choice.ofBit difference.carry =
      Choice.ofBool (decide (Words.value left < Words.value right)) :=
    Words.borrow_sub_eq left right sameWidth
  have correctedEq :
      corrected =
        if decide (Words.value left < Words.value right) then
          restored.result
        else
          difference.result := by
    simp only [corrected]
    rw [borrow,
      Words.assignIf_ofBool _ _ _ (restoredLength.trans modulusLength)]
  by_cases less : Words.value left < Words.value right
  · have paid :
        Words.value restored.result + Words.value right =
          Words.value left + Words.value context.modulus :=
      Words.value_restored left right context.modulus sameWidth modulusWidth
        less rightBelow
    rw [correctedEq, if_pos (by simpa using less)]
    refine ⟨by omega, restoredLength, restoredLength, ?_⟩
    rw [paid]
    exact Nat.add_modEq_right
  · have unborrowed :
        Words.value difference.result + Words.value right =
          Words.value left :=
      Words.value_sub_of_le left right sameWidth (Nat.not_lt.1 less)
    rw [correctedEq, if_neg (by simpa using less)]
    refine ⟨by omega, differenceLength, restoredLength, ?_⟩
    rw [unborrowed]

/-! ## Forms of constants -/

section

variable
  {context : Context}
  (sound : context.Sound)

include sound

theorem Sound.nonempty :
    0 < context.zero.length := by
  simpa using sound.reducer.width_pos

theorem Sound.represents_zero :
    context.Represents context.zero 0 := by
  apply sound.reducer.represents_of_cast
  · simp
  · simpa using sound.reducer.modulus_pos
  · simp

/-- Zero is the only number that represents zero. -/
theorem Sound.value_eq_zero_iff
    {number : Words}
    {residue : context.Residues}
    (form : context.Represents number residue) :
    Words.value number = 0 ↔ residue = 0 := by
  rw [← sound.reducer.represents_inj form sound.represents_zero,
    ← context.value_zero]
  apply Words.value_inj
  simpa using form.width

theorem Sound.represents_one :
    context.Represents context.one 1 := by
  apply sound.reducer.represents_of_cast
  · exact sound.one_length
  · rw [sound.one_value]
    exact Nat.mod_lt _ sound.reducer.modulus_pos
  · rw [sound.one_value, ZMod.natCast_mod, one_mul]
    rfl

/-- The square of the radix is the form of the radix. -/
theorem Sound.represents_radixSquared :
    context.Represents context.radixSquared context.radix := by
  apply sound.reducer.represents_of_cast
  · exact sound.radixSquared_length
  · rw [sound.radixSquared_value]
    exact Nat.mod_lt _ sound.reducer.modulus_pos
  · have squared :
        2 ^ (2 * 64 * context.width) =
          2 ^ (64 * context.width) * 2 ^ (64 * context.width) := by
      rw [← Nat.pow_add]
      congr 1
      omega
    rw [sound.radixSquared_value, ZMod.natCast_mod, squared, Nat.cast_mul]
    rfl

theorem Sound.value_plainOne :
    Words.value context.plainOne = 1 :=
  Words.value_setWord context.zero 1 sound.nonempty

/-- The plain one is the form of the inverse of the radix. -/
theorem Sound.represents_plainOne :
    context.Represents context.plainOne context.radix⁻¹ := by
  apply sound.reducer.represents_of_cast
  · simp
  · rw [sound.value_plainOne]
    exact sound.one_lt
  · rw [sound.value_plainOne, Nat.cast_one, mul_comm,
      sound.reducer.radix_mul_inv]

/-! ## Sums, differences and negation -/

/-- A total below twice the modulus is corrected to a form. -/
theorem Sound.correctSum_yields
    {sum : Carried Words}
    {total : Nat}
    {residue : context.Residues}
    (length : sum.result.length = context.width)
    (carryBound : sum.carry.toNat ≤ 1)
    (exact :
      Words.value sum.result + 2 ^ (64 * context.width) * sum.carry.toNat =
        total)
    (bound : total < 2 * Words.value context.modulus)
    (cast : (total : context.Residues) = residue * context.radix) :
    context.Yields (context.correctSum sum) residue := by
  intro scratch fits
  have sameWidth : context.modulus.length = sum.result.length := length.symm
  rcases
      Words.correct_carried sum context.modulus total sameWidth carryBound
        (by rw [length]; exact exact) bound with
    ⟨below, resultLength, congruent⟩
  have reducedLength :
      (Words.sub sum.result context.modulus).result.length =
        context.width := by
    simp [sameWidth, length]
  refine ⟨?_, fits.accumulator, reducedLength⟩
  apply sound.reducer.represents_of_cast
  · exact resultLength.trans length
  · exact below
  · rw [← cast]
    exact (ZMod.natCast_eq_natCast_iff _ _ _).2 congruent

theorem Sound.add_yields
    {left right : Words}
    {leftResidue rightResidue : context.Residues}
    (leftForm : context.Represents left leftResidue)
    (rightForm : context.Represents right rightResidue) :
    context.Yields (context.add left right)
      (leftResidue + rightResidue) := by
  have sameWidth : right.length = left.length :=
    rightForm.width.trans leftForm.width.symm
  have exact := Words.value_add left right sameWidth
  rw [leftForm.width] at exact
  apply sound.correctSum_yields _ (Words.carry_add_le left right) exact
  · have leftBelow := leftForm.below
    have rightBelow := rightForm.below
    omega
  · rw [Nat.cast_add, sound.reducer.cast_of_represents leftForm,
      sound.reducer.cast_of_represents rightForm, add_mul]
  · simpa [sameWidth] using leftForm.width

theorem Sound.addInPlace_yields
    {left right : Words}
    {leftResidue rightResidue : context.Residues}
    (leftForm : context.Represents left leftResidue)
    (rightForm : context.Represents right rightResidue) :
    context.Yields (context.addInPlace left right)
      (leftResidue + rightResidue) := by
  rw [addInPlace,
    Words.addShort_eq_add _ _ (rightForm.width.trans leftForm.width.symm)]
  exact sound.add_yields leftForm rightForm

theorem Sound.sub_yields
    {left right : Words}
    {leftResidue rightResidue : context.Residues}
    (leftForm : context.Represents left leftResidue)
    (rightForm : context.Represents right rightResidue) :
    context.Yields (context.sub left right)
      (leftResidue - rightResidue) := by
  intro scratch fits
  rcases
      correctDifference_exact context left right leftForm.width
        rightForm.width leftForm.below rightForm.below with
    ⟨below, length, restoredLength, congruent⟩
  refine ⟨?_, fits.accumulator, restoredLength⟩
  apply sound.reducer.represents_of_cast
  · exact length
  · exact below
  · have cast := (ZMod.natCast_eq_natCast_iff _ _ _).2 congruent
    rw [Nat.cast_add] at cast
    rw [sub_mul, ← sound.reducer.cast_of_represents leftForm,
      ← sound.reducer.cast_of_represents rightForm]
    exact eq_sub_of_add_eq cast

theorem Sound.subInPlace_yields
    {left right : Words}
    {leftResidue rightResidue : context.Residues}
    (leftForm : context.Represents left leftResidue)
    (rightForm : context.Represents right rightResidue) :
    context.Yields (context.subInPlace left right)
      (leftResidue - rightResidue) := by
  rw [subInPlace,
    Words.subShort_eq_sub _ _ (rightForm.width.trans leftForm.width.symm)]
  exact sound.sub_yields leftForm rightForm

/-- The complement to the modulus, with zero for zero. -/
theorem Sound.represents_neg
    {number : Words}
    {residue : context.Residues}
    (form : context.Represents number residue) :
    context.Represents (context.neg number) (-residue) := by
  have sameWidth : number.length = context.modulus.length := form.width
  have length := Words.length_sub context.modulus number sameWidth
  have below := form.below
  have complement :
      Words.value (Words.sub context.modulus number).result +
          Words.value number =
        Words.value context.modulus :=
    Words.value_sub_of_le context.modulus number sameWidth below.le
  have selected :
      context.neg number =
        if Words.value number = 0 then
          Words.clear (Words.sub context.modulus number).result
        else
          (Words.sub context.modulus number).result := by
    simp only [neg, Words.isZero_eq, Choice.select_ofBool,
      decide_eq_true_eq, Words.clear]
    split_ifs with isZero
    · rfl
    · exact List.map_id' _
  have cast := sound.reducer.cast_of_represents form
  rw [selected]
  split_ifs with isZero
  · apply sound.reducer.represents_of_cast
    · rw [Words.length_clear]
      exact length
    · simpa using sound.reducer.modulus_pos
    · rw [isZero, Nat.cast_zero] at cast
      rw [Words.value_clear, Nat.cast_zero, neg_mul, ← cast, neg_zero]
  · apply sound.reducer.represents_of_cast
    · exact length
    · omega
    · have total := congrArg (Nat.cast (R := context.Residues)) complement
      rw [Nat.cast_add, ZMod.natCast_self] at total
      rw [neg_mul, ← cast]
      exact eq_neg_of_add_eq_zero_left total

/-! ## Small words -/

/-- The double-width product of a form by a word leaves room to reduce. -/
theorem Sound.product_word_lt
    (word : Word) :
    Words.value context.radixSquared * word.toNat <
      Words.value context.modulus * 2 ^ (64 * context.width) := by
  have below := sound.represents_radixSquared.below
  have wordBound := word.toNat_lt
  have weight : 2 ^ 64 ≤ 2 ^ (64 * context.width) :=
    Nat.pow_le_pow_right (by decide)
      (Nat.le_mul_of_pos_right 64 sound.reducer.width_pos)
  exact Nat.mul_lt_mul'' below (lt_of_lt_of_le wordBound weight)

/--
The temporaries after the square of the radix is multiplied by a word.  The
product is below the weight of the first word beyond it.
-/
theorem Sound.loadProduct_exact
    (word : Word)
    (scratch : Scratch)
    (fits : scratch.Fits context.width) :
    let cleared := Words.clear scratch.accumulator
    let low := cleared.take (context.width + 1)
    let high := cleared.drop (context.width + 1)
    let product := Words.addMul method low context.radixSquared word
    product.carry = 0 ∧
      Words.value (product.result ++ high) =
        Words.value context.radixSquared * word.toNat ∧
      (product.result ++ high).length = 2 * context.width + 1 := by
  intro cleared low high product
  have clearedLength : cleared.length = 2 * context.width + 1 := by
    simpa [cleared] using fits.accumulator
  have lowLength : low.length = context.width + 1 := by
    rw [List.length_take, clearedLength]
    omega
  have productLength : product.result.length = context.width + 1 := by
    simpa [product] using lowLength
  have lowZero : Words.value low = 0 := Words.value_take_clear _ _
  have highZero : Words.value high = 0 := Words.value_drop_clear _ _
  have exact :=
    Words.value_addMul method low context.radixSquared word
      (by rw [lowLength, sound.radixSquared_length]; exact Nat.le_succ _)
  rw [lowLength, lowZero, Nat.zero_add] at exact
  have room :
      Words.value context.radixSquared * word.toNat <
        2 ^ (64 * (context.width + 1)) := by
    have radixBound := Words.value_lt context.radixSquared
    rw [sound.radixSquared_length] at radixBound
    rw [Nat.mul_add, Nat.pow_add]
    exact Nat.mul_lt_mul'' radixBound word.toNat_lt
  rcases Words.carry_eq_zero_of_lt exact room with ⟨noCarry, productValue⟩
  refine ⟨noCarry, ?_, ?_⟩
  · rw [Words.value_append, highZero, Nat.mul_zero, Nat.add_zero]
    exact productValue
  · rw [List.length_append, productLength, List.length_drop, clearedLength]
    omega

/-- Dividing by the radix twice takes its square away again. -/
theorem Sound.quotient_radixSquared
    (word : Word) :
    ((Words.value context.radixSquared * word.toNat : Nat) :
        context.Residues) * context.radix⁻¹ * context.radix⁻¹ =
      word.toNat := by
  have cancel := sound.reducer.radix_mul_inv
  rw [Nat.cast_mul,
    sound.reducer.cast_of_represents sound.represents_radixSquared]
  calc context.radix * context.radix * (word.toNat : context.Residues) *
        context.radix⁻¹ * context.radix⁻¹
      = (context.radix * context.radix⁻¹) *
          (context.radix * context.radix⁻¹) * word.toNat := by
        ring
    _ = word.toNat := by
        rw [cancel, one_mul, one_mul]

/-- Every word enters Montgomery form, below the modulus or not. -/
theorem Sound.encodeWord_yields
    (word : Word) :
    context.Yields (context.encodeWord word)
      (word.toNat : context.Residues) := by
  rw [encodeWord]
  by_cases isZero : word = 0
  · rw [if_pos (by simpa using isZero), isZero]
    apply ScratchM.Ensures.pure
    rw [UInt64.toNat_zero, Nat.cast_zero]
    exact sound.represents_zero
  · rw [if_neg (by simpa using isZero)]
    by_cases isOne : word = 1
    · rw [if_pos (by simpa using isOne), isOne]
      apply ScratchM.Ensures.pure
      rw [UInt64.toNat_one, Nat.cast_one]
      exact sound.represents_one
    · rw [if_neg (by simpa using isOne)]
      intro scratch fits
      rcases sound.loadProduct_exact word scratch fits with ⟨_, total, length⟩
      rcases
          sound.reducer.reduce_exact
            { scratch with
              accumulator :=
                (Words.addMul method
                    ((Words.clear scratch.accumulator).take (context.width + 1))
                    context.radixSquared word).result ++
                  (Words.clear scratch.accumulator).drop (context.width + 1) }
            ⟨length, fits.difference⟩
            (by rw [total]; exact sound.product_word_lt word) with
        ⟨reduces, after⟩
      refine ⟨?_, after⟩
      have represents := sound.reducer.represents_of_reduces reduces
      rw [total, sound.quotient_radixSquared] at represents
      exact represents

end

end ModularLadder.Montgomery.Context
